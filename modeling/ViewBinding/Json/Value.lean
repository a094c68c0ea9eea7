import ViewBinding.Json.Fault

/-!
# Values

Documents as trees, and their written form: members and items on lines of their own, indented by two
spaces for each list or object around them, an empty list or object closed at once.
-/

namespace ViewBinding.Json

/-- A document as a tree. The members of an object keep their order. -/
inductive Value where
  | null
  | boolean (b : Bool)
  | number (n : Numeral)
  | text (s : String)
  | list (items : List Value)
  | object (members : List (String × Value))

/-- One character as it is written in a text. -/
def writtenChar (c : Char) : List Char :=
  if c = '"' || c = '\\' then ['\\', c]
  else if c = '\x08' then ['\\', 'b']
  else if c = '\x0c' then ['\\', 'f']
  else if c = '\n' then ['\\', 'n']
  else if c = '\r' then ['\\', 'r']
  else if c = '\t' then ['\\', 't']
  else if c.toNat < 0x20 then
    ['\\', 'u', '0', '0', Nat.digitChar (c.toNat / 16), Nat.digitChar (c.toNat % 16)]
  else [c]

/-- A text as it is written. -/
def writtenText (s : String) : List Char := '"' :: s.toList.flatMap writtenChar ++ ['"']

/-- A number as it is written. -/
def writtenNumber : Numeral → List Char
  | .integer n => (toString n).toList
  | .decimal negative x =>
    (if negative then ['-'] else []) ++ (x.shortest.render decimalStyle).toList

/-- A new line at this depth. -/
def newLine (depth : Nat) : List Char := '\n' :: List.replicate (2 * depth) ' '

namespace Value

mutual

/-- A value as it is written inside this many lists and objects. -/
def written (depth : Nat) : Value → List Char
  | null => "null".toList
  | boolean b => (toString b).toList
  | number n => writtenNumber n
  | text s => writtenText s
  | list [] => "[]".toList
  | list (v :: vs) =>
    '[' :: newLine (depth + 1) ++ written (depth + 1) v ++ writtenItems (depth + 1) vs ++
      newLine depth ++ [']']
  | object [] => "\x7b\x7d".toList
  | object ((k, v) :: ms) =>
    '\x7b' :: newLine (depth + 1) ++ writtenText k ++ ": ".toList ++ written (depth + 1) v ++
      writtenMembers (depth + 1) ms ++ newLine depth ++ ['\x7d']

/-- The items after the first, each after a comma. -/
def writtenItems (depth : Nat) : List Value → List Char
  | [] => []
  | v :: vs => ',' :: newLine depth ++ written depth v ++ writtenItems depth vs

/-- The members after the first, each after a comma. -/
def writtenMembers (depth : Nat) : List (String × Value) → List Char
  | [] => []
  | (k, v) :: ms =>
    ',' :: newLine depth ++ writtenText k ++ ": ".toList ++ written depth v ++
      writtenMembers depth ms

end

/-- A whole document. -/
def document (v : Value) : String := String.ofList (v.written 0)

end Value

end ViewBinding.Json
