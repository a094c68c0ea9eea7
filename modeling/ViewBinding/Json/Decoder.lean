import ViewBinding.Json.Number
import ViewBinding.Json.Skip

/-!
# Decoders

Readers for the types that documents here are made of: texts, 32-bit integers, booleans, optional
values, lists and records. A value of another type is read as far as is needed to name it.

A record is an object with its fields in any order, or a list of its fields in their order. A
repeated, unknown or missing key is reported where the reader stands once it has tried to close the
record.
-/

namespace ViewBinding.Json

namespace Reader

variable {α : Type}

/-- Read a scalar at the front to name it; what starts no value is refused as such. -/
def found (c : Char) : Reader Found := do
  match c with
  | 'n' => do advance; word "ull".toList; pure .null
  | 't' => do advance; word "rue".toList; pure (.boolean true)
  | 'f' => do advance; word "alse".toList; pure (.boolean false)
  | '-' => do advance; pure (.number (← numeral true))
  | '"' => do advance; pure (.text (← textBody))
  | '[' => pure .sequence
  | '\x7b' => pure .map
  | c => if c.isDigit then pure (.number (← numeral false)) else failNext .expectedValue

/-- Refuse the value that begins with `c` because another type is wanted. -/
def wrongType (wanted : String) (c : Char) : Reader α := do
  fail (.wrongType (← found c) wanted)

/-- Read the value that begins at the next character that is no blank. -/
def value (read : Char → Reader α) : Reader α := do
  match ← skipBlank with
  | none => failNext (.ended .value)
  | some c => read c

/-- Read a text. -/
def text : Reader String := value fun
  | '"' => do advance; textBody
  | c => wrongType "a string" c

/-- Read a boolean. -/
def boolean : Reader Bool := value fun
  | 't' => do advance; word "rue".toList; pure true
  | 'f' => do advance; word "alse".toList; pure false
  | c => wrongType "a boolean" c

/-- Accept an integer of 32 bits. -/
def int32OfNumeral : Numeral → Reader Int
  | .integer n =>
    if -2147483648 ≤ n ∧ n ≤ 2147483647 then pure n else fail (.outsideRange n "i32")
  | n => fail (.wrongType (.number n) "i32")

/-- Read an integer of 32 bits. -/
def int32 : Reader Int := value fun
  | '-' => do advance; int32OfNumeral (← numeral true)
  | c => do if c.isDigit then int32OfNumeral (← numeral false) else wrongType "i32" c

/-- Read a value or `null`. -/
def optional (read : Reader α) : Reader (Option α) := do
  match ← skipBlank with
  | some 'n' => do advance; word "ull".toList; pure none
  | _ => some <$> read

/-- Is there a first item? If not, the end of the list is read. -/
def firstItem : Reader Bool := do
  match ← skipBlank with
  | none => failNext (.ended .list)
  | some ']' => do advance; pure false
  | some _ => pure true

/-- Is there another item after one? If so its comma is read, if not the end of the list. -/
def nextItem : Reader Bool := do
  match ← skipBlank with
  | none => failNext (.ended .list)
  | some ']' => do advance; pure false
  | some ',' => do
    advance
    match ← skipBlank with
    | none => failNext (.ended .value)
    | some ']' => failNext .trailingComma
    | some _ => pure true
  | some _ => failNext .expectedListEnd

/-- Read the items of a list, of which there is at least one; `fuel` bounds their number. -/
def items (read : Reader α) : Nat → Reader (List α)
  | 0 => failNext (.ended .list)
  | fuel + 1 => do
    let a ← read
    if ← nextItem then pure (a :: (← items read fuel)) else pure [a]

/-- Read a list. -/
def list (read : Reader α) : Reader (List α) := value fun
  | '[' => do
    advance
    if ← firstItem then items read ((← remaining) + 1) else pure []
  | c => wrongType "a sequence" c

/-- Is there a first member? If so the quote of its key is read, if not the end of the object. -/
def firstMember : Reader Bool := do
  match ← skipBlank with
  | none => failNext (.ended .object)
  | some '\x7d' => do advance; pure false
  | some '"' => do advance; pure true
  | some _ => failNext .keyNotText

/-- Is there another member after one? If so the quote of its key is read, if not the end of the
object. -/
def nextMember : Reader Bool := do
  match ← skipBlank with
  | none => failNext (.ended .object)
  | some '\x7d' => do advance; pure false
  | some ',' => do
    advance
    match ← skipBlank with
    | none => failNext (.ended .value)
    | some '\x7d' => failNext .trailingComma
    | some '"' => do advance; pure true
    | some _ => failNext .keyNotText
  | some _ => failNext .expectedObjectEnd

/-- Refuse a key, having skipped blanks and the end of the object if it follows. -/
def refuseKey (fault : Fault) : Reader α := do
  match ← skipBlank with
  | some '\x7d' => do advance; fail fault
  | _ => fail fault

end Reader

/-- A field of a record: its key, whether it may be absent, and a reader that stores its value. -/
structure Field (ρ : Type) where
  key : String
  required : Bool
  read : Reader (ρ → ρ)

/-- A field that has to be there. -/
def Field.mandatory {ρ α : Type} (key : String) (read : Reader α) (set : α → ρ → ρ) : Field ρ :=
  ⟨key, true, set <$> read⟩

/-- A field that keeps the value of the blank record if it is absent. -/
def Field.defaulted {ρ α : Type} (key : String) (read : Reader α) (set : α → ρ → ρ) : Field ρ :=
  ⟨key, false, set <$> read⟩

/-- A type of records: its name, its fields in order and the record that has none of them set. -/
structure RecordType (ρ : Type) where
  name : String
  fields : List (Field ρ)
  blank : ρ
  /-- Are keys that name no field refused? Otherwise their values are skipped. -/
  closed : Bool

namespace RecordType

open Reader

variable {ρ : Type}

/-- The field with a key. -/
def field? (t : RecordType ρ) (key : String) : Option (Field ρ) := t.fields.find? (·.key == key)

/-- Read a member after the quote of its key: the record with it and the keys seen. -/
def member (t : RecordType ρ) (r : ρ) (seen : List String) : Reader (ρ × List String) := do
  let key ← textBody
  match t.field? key with
  | none =>
    if t.closed then refuseKey (.unknownField key (t.fields.map (·.key)))
    else do
      colon
      skipValue
      pure (r, seen)
  | some f =>
    if key ∈ seen then refuseKey (.duplicateField key)
    else do
      colon
      let store ← f.read
      pure (store r, key :: seen)

/-- End an object: every field that has to be there must have been seen. -/
def finish (t : RecordType ρ) (r : ρ) (seen : List String) : Reader ρ :=
  match t.fields.find? fun f => f.required && !seen.contains f.key with
  | some f => fail (.missingField f.key)
  | none => pure r

/-- Read the members of an object, of which there is at least one; `fuel` bounds their number. -/
def members (t : RecordType ρ) : Nat → ρ → List String → Reader ρ
  | 0, _, _ => failNext (.ended .object)
  | fuel + 1, r, seen => do
    let (r, seen) ← t.member r seen
    if ← nextMember then t.members fuel r seen else t.finish r seen

/-- The record of a list that has ended before these fields, of which the first has this index. -/
def complete (t : RecordType ρ) (r : ρ) : Nat → List (Field ρ) → Reader ρ
  | _, [] => pure r
  | index, f :: rest =>
    if f.required then fail (.wrongLength index t.name t.fields.length)
    else t.complete r (index + 1) rest

/-- End a list all of whose fields were read. -/
def closeFields : Reader Unit := do
  match ← skipBlank with
  | none => failNext (.ended .list)
  | some ']' => advance
  | some ',' => do
    advance
    match ← skipBlank with
    | some ']' => failNext .trailingComma
    | _ => failNext .trailingCharacters
  | some _ => failNext .trailingCharacters

/-- Read these fields from a list in order; `more` says whether another item follows. -/
def positional (t : RecordType ρ) (more : Reader Bool) : ρ → Nat → List (Field ρ) → Reader ρ
  | r, _, [] => do closeFields; pure r
  | r, index, f :: rest => do
    if ← more then
      let store ← f.read
      t.positional nextItem (store r) (index + 1) rest
    else t.complete r index (f :: rest)

/-- Read a record. -/
def read (t : RecordType ρ) : Reader ρ := value fun
  | '\x7b' => do
    advance
    if ← firstMember then t.members ((← remaining) + 1) t.blank [] else t.finish t.blank []
  | '[' => do
    advance
    t.positional firstItem t.blank 0 t.fields
  | c => wrongType ("struct " ++ t.name) c

end RecordType

/-- Read a whole document, after which only blanks may follow. -/
def Reader.document {α : Type} (read : Reader α) : Reader α := do
  let a ← read
  match ← skipBlank with
  | none => pure a
  | some _ => failNext .trailingCharacters

/-- Decode a document. -/
def decode {α : Type} (read : Reader α) (document : String) : Except Error α :=
  match read.document (Cursor.start document.toList) with
  | .ok (a, _) => .ok a
  | .error p => .error (p.locate document.toList)

end ViewBinding.Json
