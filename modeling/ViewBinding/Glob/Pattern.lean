/-!
# Glob patterns

A pattern is a list of tokens: plain characters, `?`, sets in brackets, `*`, and `**`, which has to
be a whole path component and takes the slash after it along. Matching is against a whole text, and
all wildcards but `**` also pass over slashes and leading dots.
-/

namespace ViewBinding.Glob

/-- One item of a set: a character or an inclusive range. A range may be empty. -/
inductive SetItem where
  | single (c : Char)
  | range (first last : Char)
  deriving DecidableEq, Repr

/-- Is a character covered by the item? -/
def SetItem.covers (i : SetItem) (c : Char) : Bool :=
  match i with
  | single x => c == x
  | range first last => first ≤ c && c ≤ last

/-- One token of a pattern. -/
inductive Token where
  | char (c : Char)
  | anyChar
  | oneOf (items : List SetItem)
  | noneOf (items : List SetItem)
  /-- Any run of characters. -/
  | anyRun
  /-- Nothing, or a run of whole components with the slash after it. -/
  | anyComponents
  deriving DecidableEq, Repr

/-- Does a token for one character accept it? -/
def Token.accepts (t : Token) (c : Char) : Bool :=
  match t with
  | char x => c == x
  | anyChar => true
  | oneOf items => items.any (·.covers c)
  | noneOf items => !items.any (·.covers c)
  | anyRun | anyComponents => false

/-- What is wrong with a pattern. -/
inductive Flaw where
  | tooManyStars
  | starsInComponent
  | badRange
  deriving DecidableEq, Repr

/-- A flaw and the number of characters before it. -/
structure PatternError where
  flaw : Flaw
  position : Nat
  deriving DecidableEq, Repr

/-- The words for a flaw. -/
def Flaw.describe : Flaw → String
  | tooManyStars => "wildcards are either regular `*` or recursive `**`"
  | starsInComponent => "recursive wildcards must form a single path component"
  | badRange => "invalid range pattern"

/-- The text of a flaw with its place. -/
def PatternError.message (e : PatternError) : String :=
  "Pattern syntax error near position " ++ toString e.position ++ ": " ++ e.flaw.describe

/-- The items of a set, three characters making a range if the middle one is a dash. -/
def setItems : List Char → List SetItem
  | a :: '-' :: b :: rest => .range a b :: setItems rest
  | a :: rest => .single a :: setItems rest
  | [] => []

/-- A character set after its opening bracket: the token and the characters it takes. The first
character of the set belongs to it even if it is a closing bracket. -/
def set? (cs : List Char) : Option (Token × Nat) :=
  match cs with
  | '!' :: first :: rest =>
    if rest.contains ']' then
      let inner := rest.takeWhile (· ≠ ']')
      some (.noneOf (setItems (first :: inner)), inner.length + 3)
    else none
  | first :: rest =>
    if first ≠ '!' && rest.contains ']' then
      let inner := rest.takeWhile (· ≠ ']')
      some (.oneOf (setItems (first :: inner)), inner.length + 2)
    else none
  | [] => none

/-- Read tokens. `before` is the character before this place and `position` the number of characters
before it; `fuel` bounds the number of tokens. -/
def tokens (before : Option Char) (position : Nat) :
    Nat → List Char → Except PatternError (List Token)
  | 0, _ => .ok []
  | _, [] => .ok []
  | fuel + 1, '*' :: rest =>
    let stars := 1 + (rest.takeWhile (· = '*')).length
    let rest := rest.dropWhile (· = '*')
    if 2 < stars then .error ⟨.tooManyStars, position + 2⟩
    else if stars = 2 then
      if before = none ∨ before = some '/' then
        match rest with
        | [] => .ok [.anyComponents]
        | '/' :: rest => (.anyComponents :: ·) <$> tokens (some '/') (position + 3) fuel rest
        | _ => .error ⟨.starsInComponent, position + 2⟩
      else .error ⟨.starsInComponent, position - 1⟩
    else (.anyRun :: ·) <$> tokens (some '*') (position + 1) fuel rest
  | fuel + 1, '[' :: rest =>
    match set? rest with
    | none => .error ⟨.badRange, position⟩
    | some (token, taken) =>
      (token :: ·) <$> tokens (some ']') (position + 1 + taken) fuel (rest.drop taken)
  | fuel + 1, '?' :: rest => (.anyChar :: ·) <$> tokens (some '?') (position + 1) fuel rest
  | fuel + 1, c :: rest => (.char c :: ·) <$> tokens (some c) (position + 1) fuel rest

/-- A pattern that is well formed. -/
structure Pattern where
  tokens : List Token
  deriving DecidableEq, Repr

namespace Pattern

/-- Read a pattern. -/
def parse (s : String) : Except PatternError Pattern :=
  Pattern.mk <$> Glob.tokens none 0 (s.toList.length + 1) s.toList

/-- The text and all that is left of it after each character. -/
def suffixes : List Char → List (List Char)
  | [] => [[]]
  | c :: rest => (c :: rest) :: suffixes rest

/-- What may be left of a text after whole components of it: all, what follows a slash, nothing. -/
def componentSuffixes (text : List Char) : List (List Char) :=
  let rec afterSlashes : List Char → List (List Char)
    | [] => [[]]
    | c :: rest => if c = '/' then rest :: afterSlashes rest else afterSlashes rest
  text :: afterSlashes text

/-- Do the tokens match the whole text? -/
def matchesAll : List Token → List Char → Bool
  | [], text => text.isEmpty
  | .anyRun :: more, text => (suffixes text).any (matchesAll more)
  | .anyComponents :: more, text => (componentSuffixes text).any (matchesAll more)
  | token :: more, c :: rest => token.accepts c && matchesAll more rest
  | _ :: _, [] => false

/-- Does the pattern match the whole text? -/
def isMatch (p : Pattern) (s : String) : Bool := matchesAll p.tokens s.toList

/-- Does the pattern go through directories of any depth? -/
def isRecursive (p : Pattern) : Bool := p.tokens.contains .anyComponents

/-- The only text that the pattern matches, if it has no wildcard. -/
def literal? (p : Pattern) : Option String :=
  String.ofList <$> p.tokens.mapM fun
    | .char c => some c
    | _ => none

end Pattern

/-- Is a text taken as a pattern? One without these wildcards is taken as it is. -/
def hasWildcard (s : String) : Bool := s.toList.any fun c => c == '*' || c == '?'

end ViewBinding.Glob
