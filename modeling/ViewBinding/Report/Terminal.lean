/-!
# Styled text

Text for a terminal, with escape sequences around what is styled, or without any.
-/

namespace ViewBinding

/-- The colours in use. -/
inductive Color where
  | red
  | green
  | yellow
  | blue
  | cyan
  deriving DecidableEq, Repr

/-- The number of a colour. -/
def Color.code : Color → String
  | red => "31"
  | green => "32"
  | yellow => "33"
  | blue => "34"
  | cyan => "36"

/-- How a piece of text is shown. -/
structure Style where
  bold : Bool := false
  dimmed : Bool := false
  color : Option Color := none
  deriving DecidableEq, Repr

/-- The numbers of a style, its weight before its colour. -/
def Style.codes (s : Style) : List String :=
  (if s.bold then ["1"] else []) ++ (if s.dimmed then ["2"] else []) ++
    (s.color.map (·.code)).toList

/-- A text in a style, if the terminal shows styles. -/
def Style.paint (s : Style) (styled : Bool) (text : String) : String :=
  if styled then "\x1b[" ++ ";".intercalate s.codes ++ "m" ++ text ++ "\x1b[0m" else text

/-- What the environment says on styles, and whether the output goes to a terminal. -/
structure StyleSettings where
  /-- The value of `CLICOLOR_FORCE`: styles anyway, unless it is 0. -/
  force : Option String
  /-- The value of `NO_COLOR`: no styles, whatever it is. -/
  never : Option String
  /-- The value of `CLICOLOR`: no styles if it is 0. -/
  allow : Option String
  terminal : Bool
  deriving DecidableEq, Repr

/-- Is text styled? A forced style wins over a forbidden one, and either over the terminal. -/
def StyleSettings.styled (s : StyleSettings) : Bool :=
  if s.force.any (· ≠ "0") then true
  else if s.never.isSome then false
  else s.terminal && s.allow.all (· ≠ "0")

end ViewBinding
