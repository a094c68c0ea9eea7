import ViewBinding.Json.Fault

/-!
# Readers

A reader takes a value off the front of a document. It carries the rest of the text and the number
of bytes already read. A fault is reported either here, after what was read, or next, after one more
byte if there is one.
-/

namespace ViewBinding.Json

/-- A place in a document: the text still to be read and the number of bytes before it. -/
structure Cursor where
  rest : List Char
  offset : Nat
  deriving DecidableEq, Repr

namespace Cursor

/-- The start of a document. -/
def start (document : List Char) : Cursor := ⟨document, 0⟩

/-- The place after the next character. -/
def advance (c : Cursor) : Cursor :=
  match c.rest with
  | [] => c
  | x :: rest => ⟨rest, c.offset + x.utf8Size⟩

/-- The place after the next byte, as far as faults are concerned. -/
def nextOffset (c : Cursor) : Nat := if c.rest.isEmpty then c.offset else c.offset + 1

end Cursor

/-- The characters that may stand between the tokens of a document. -/
def isBlank (c : Char) : Bool := c == ' ' || c == '\n' || c == '\t' || c == '\r'

/-- Read a value of type `α` off the front of a document. -/
abbrev Reader (α : Type) := StateT Cursor (Except Problem) α

namespace Reader

variable {α : Type}

/-- Fail at a byte offset. -/
def failAt (fault : Fault) (offset : Nat) : Reader α := fun _ => .error ⟨fault, offset⟩

/-- Fail after what was read. -/
def fail (fault : Fault) : Reader α := fun c => .error ⟨fault, c.offset⟩

/-- Fail after the next byte. -/
def failNext (fault : Fault) : Reader α := fun c => .error ⟨fault, c.nextOffset⟩

/-- The next character, which is not read. -/
def next? : Reader (Option Char) := fun c => .ok (c.rest.head?, c)

/-- Read the next character. -/
def advance : Reader Unit := fun c => .ok ((), c.advance)

/-- Read all characters at the front that satisfy `p`. They take a byte each where this is used. -/
def takeWhile (p : Char → Bool) : Reader (List Char) := fun c =>
  let taken := c.rest.takeWhile p
  .ok (taken, ⟨c.rest.dropWhile p, c.offset + taken.length⟩)

/-- Read the blanks at the front, then look at the next character. -/
def skipBlank : Reader (Option Char) := do
  let _ ← takeWhile isBlank
  next?

/-- The number of characters left, which bounds every loop over the document. -/
def remaining : Reader Nat := fun c => .ok (c.rest.length, c)

/-- Read the given characters, the rest of a word. -/
def word : List Char → Reader Unit
  | [] => pure ()
  | expected :: more => do
    match ← next? with
    | none => fail (.ended .value)
    | some c => if c = expected then do advance; word more else failNext .expectedIdent

/-- Read the colon between a key and its value. -/
def colon : Reader Unit := do
  match ← skipBlank with
  | some ':' => advance
  | some _ => failNext .expectedColon
  | none => failNext (.ended .object)

end Reader

end ViewBinding.Json
