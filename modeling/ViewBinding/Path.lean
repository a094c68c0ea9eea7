import ViewBinding.Text.Split

/-!
# Paths

A path is kept as it is written. Read by components, doubled slashes, a final slash and inner dots
vanish, while a leading dot and every double dot stay. Joining works on the text; prefixes are
compared by components.
-/

namespace ViewBinding

/-- A path as it is written. -/
structure Path where
  text : String
  deriving DecidableEq, Repr

/-- One step of a path. -/
inductive Component where
  | root
  | current
  | parent
  | name (s : String)
  deriving DecidableEq, Repr

namespace Path

/-- How a path begins: with a slash, with a dot, or with neither. -/
inductive Anchor where
  | root
  | current
  | plain
  deriving DecidableEq, Repr

/-- The beginning of a path and the pieces between the slashes after it. -/
structure Pieces where
  anchor : Anchor
  body : List String
  deriving DecidableEq, Repr

/-- A piece that is no component: nothing between two slashes, or a dot after the beginning. -/
def isIdle (piece : String) : Bool := piece == "" || piece == "."

/-- Drop the idle pieces at the end. -/
def trimEnd (pieces : List String) : List String := (pieces.reverse.dropWhile isIdle).reverse

/-- Drop the idle pieces at both ends. -/
def trim (pieces : List String) : List String := trimEnd (pieces.dropWhile isIdle)

/-- Take a path apart. -/
def pieces (p : Path) : Pieces :=
  match Text.split '/' p.text with
  | "" :: second :: more => ⟨.root, second :: more⟩
  | "." :: more => ⟨.current, more⟩
  | all => ⟨.plain, all⟩

/-- Put a path together. -/
def Pieces.path (ps : Pieces) : Path :=
  match ps.anchor with
  | .root => ⟨"/" ++ Text.join '/' ps.body⟩
  | .current => ⟨Text.join '/' ("." :: ps.body)⟩
  | .plain => ⟨Text.join '/' ps.body⟩

/-- The component that a beginning is, if it is one. -/
def Anchor.components : Anchor → List Component
  | root => [.root]
  | current => [.current]
  | plain => []

/-- The component of a piece that is not idle. -/
def componentOf (piece : String) : Component := if piece = ".." then .parent else .name piece

/-- The components of a path. -/
def components (p : Path) : List Component :=
  let ps := p.pieces
  ps.anchor.components ++ (ps.body.filter fun s => !isIdle s).map componentOf

/-- Does the path begin at the root? -/
def isAbsolute (p : Path) : Bool := p.text.toList.head? == some '/'

/-- Does the path stand for the current directory by being a dot? -/
def isDot (p : Path) : Bool := p.components == [.current]

/-- Go on from a path: an absolute path replaces it, any other is written after a slash. -/
def join (p : Path) (more : String) : Path :=
  if more.toList.head? == some '/' then ⟨more⟩
  else if p.text.isEmpty || p.text.toList.getLast? == some '/' then ⟨p.text ++ more⟩
  else ⟨p.text ++ "/" ++ more⟩

/-- The path without its last component; the root and the empty path have none. -/
def parent? (p : Path) : Option Path :=
  let ps := p.pieces
  match trimEnd ps.body, ps.anchor with
  | [], .current => some ⟨""⟩
  | [], _ => none
  | body, anchor => some (Pieces.path ⟨anchor, trimEnd body.dropLast⟩)

/-- A path and the paths above it, at most `fuel` of them. -/
def upwardWithin : Nat → Path → List Path
  | 0, _ => []
  | fuel + 1, p =>
    match p.parent? with
    | some above => p :: upwardWithin fuel above
    | none => [p]

/-- A path and the paths above it, up to the root or the empty path. Each step up shortens the
path. -/
def upward (p : Path) : List Path := upwardWithin (p.text.length + 1) p

/-- The last component, if it is a name. -/
def fileName? (p : Path) : Option String :=
  match (trimEnd p.pieces.body).getLast? with
  | some ".." => none
  | last => last

/-- A file name without what follows its last dot, unless the dot begins it. -/
def stem (name : String) : String :=
  match (Text.split '.' name).dropLast with
  | [] | [""] => name
  | before => Text.join '.' before

/-- The path with the extension of its file name replaced or added; trailing slashes go. A path
without a file name stays as it is. -/
def withExtension (p : Path) (extension : String) : Path :=
  match p.fileName? with
  | none => p
  | some name =>
    let ps := p.pieces
    Pieces.path ⟨ps.anchor, (trimEnd ps.body).dropLast ++ [stem name ++ "." ++ extension]⟩

/-- Is `p` at or under `base`, component by component? -/
def startsWith (p base : Path) : Bool := base.components.isPrefixOf p.components

/-- What follows the leading dot of a path that has one. -/
def afterDot? (p : Path) : Option String :=
  let ps := p.pieces
  match ps.anchor with
  | .current => some (Text.join '/' (trim ps.body))
  | _ => none

end Path

end ViewBinding
