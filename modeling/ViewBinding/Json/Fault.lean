import ViewBinding.Decimal.Shortest
import ViewBinding.Text.Hidden

/-!
# Faults of documents

What can be wrong with a document, and where. A fault is found at a byte offset; the reader of a
message gets the line, counted from one, and the number of bytes on that line before the offset.
-/

namespace ViewBinding.Json

/-- A number as it was written: an integer of at most 64 bits, or a signed double. -/
inductive Numeral where
  | integer (n : Int)
  | decimal (negative : Bool) (x : Double)
  deriving DecidableEq, Repr

/-- Doubles are written out from `0.00001` up to below ten quadrillions. -/
def decimalStyle : DecimalStyle := ⟨-4, 16⟩

/-- What stands in the place of something else. -/
inductive Found where
  | null
  | boolean (b : Bool)
  | number (n : Numeral)
  | text (s : String)
  | sequence
  | map
  deriving DecidableEq, Repr

/-- The words for what was found. -/
def Found.describe : Found → String
  | null => "null"
  | boolean b => "boolean `" ++ toString b ++ "`"
  | number (.integer n) => "integer `" ++ toString n ++ "`"
  | number (.decimal negative x) =>
    "floating point `" ++ (if negative then "-" else "") ++ x.shortest.render decimalStyle ++ "`"
  | text s => "string " ++ Text.quoted s
  | sequence => "sequence"
  | map => "map"

/-- What was being read when the document ended. -/
inductive Unfinished where
  | value
  | text
  | list
  | object
  deriving DecidableEq, Repr

/-- The words for what is unfinished. -/
def Unfinished.describe : Unfinished → String
  | value => "a value"
  | text => "a string"
  | list => "a list"
  | object => "an object"

/-- What is wrong with a document. -/
inductive Fault where
  | ended (within : Unfinished)
  | expectedValue
  | expectedIdent
  | expectedColon
  | expectedListEnd
  | expectedObjectEnd
  | keyNotText
  | trailingComma
  | trailingCharacters
  | controlCharacter
  | invalidEscape
  | loneSurrogate
  | unfinishedSurrogate
  | invalidNumber
  | numberOutOfRange
  /-- A value of another type than the one wanted. -/
  | wrongType (found : Found) (wanted : String)
  /-- An integer outside the range of the type wanted. -/
  | outsideRange (n : Int) (wanted : String)
  | duplicateField (key : String)
  | unknownField (key : String) (known : List String)
  | missingField (key : String)
  /-- A record written as a list that is too short. -/
  | wrongLength (length : Nat) (record : String) (size : Nat)
  deriving DecidableEq, Repr

namespace Fault

/-- A name between backticks. -/
def ticked (s : String) : String := "`" ++ s ++ "`"

/-- The keys that an unknown key might have been meant as. -/
def alternatives : List String → String
  | [] => "there are no fields"
  | [a] => "expected " ++ ticked a
  | [a, b] => "expected " ++ ticked a ++ " or " ++ ticked b
  | many => "expected one of " ++ ", ".intercalate (many.map ticked)

/-- The text of a fault. -/
def message : Fault → String
  | ended within => "EOF while parsing " ++ within.describe
  | expectedValue => "expected value"
  | expectedIdent => "expected ident"
  | expectedColon => "expected `:`"
  | expectedListEnd => "expected `,` or `]`"
  | expectedObjectEnd => "expected `,` or `\x7d`"
  | keyNotText => "key must be a string"
  | trailingComma => "trailing comma"
  | trailingCharacters => "trailing characters"
  | controlCharacter => "control character (\\u0000-\\u001F) found while parsing a string"
  | invalidEscape => "invalid escape"
  | loneSurrogate => "lone leading surrogate in hex escape"
  | unfinishedSurrogate => "unexpected end of hex escape"
  | invalidNumber => "invalid number"
  | numberOutOfRange => "number out of range"
  | wrongType found wanted => "invalid type: " ++ found.describe ++ ", expected " ++ wanted
  | outsideRange n wanted =>
    "invalid value: " ++ (Found.number (.integer n)).describe ++ ", expected " ++ wanted
  | duplicateField key => "duplicate field " ++ ticked key
  | unknownField key known => "unknown field " ++ ticked key ++ ", " ++ alternatives known
  | missingField key => "missing field " ++ ticked key
  | wrongLength length record size =>
    "invalid length " ++ toString length ++ ", expected struct " ++ record ++ " with " ++
      toString size ++ (if size = 1 then " element" else " elements")

end Fault

/-- A fault and the byte offset it is reported at. -/
structure Problem where
  fault : Fault
  offset : Nat
  deriving DecidableEq, Repr

/-- A fault and its place in the lines of the document. -/
structure Error where
  fault : Fault
  line : Nat
  column : Nat
  deriving DecidableEq, Repr

/-- The text of a fault with its place. -/
def Error.message (e : Error) : String :=
  e.fault.message ++ " at line " ++ toString e.line ++ " column " ++ toString e.column

/-- The line and column of a byte offset, `start` being the offset of the characters given. -/
def lineAndColumn (offset : Nat) : List Char → Nat → Nat × Nat → Nat × Nat
  | [], _, (line, lineStart) => (line, offset - lineStart)
  | c :: rest, start, (line, lineStart) =>
    if offset ≤ start then (line, offset - lineStart)
    else
      let next := start + c.utf8Size
      lineAndColumn offset rest next (if c = '\n' then (line + 1, next) else (line, lineStart))

/-- Place a problem in the lines of a document. -/
def Problem.locate (p : Problem) (document : List Char) : Error :=
  let (line, column) := lineAndColumn p.offset document 0 (1, 0)
  ⟨p.fault, line, column⟩

end ViewBinding.Json
