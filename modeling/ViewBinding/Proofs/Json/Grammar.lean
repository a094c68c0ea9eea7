import ViewBinding.Json.Number
import ViewBinding.Json.Text
import ViewBinding.Json.Value

/-!
# The grammar of documents

Which texts spell which values, told without reading: the characters of a text with their escapes,
numbers, and lists and objects of values with commas and blanks between them. A number is an integer
if it has neither fraction nor exponent and fits 64 bits; of any other only the sign is told, for
nothing depends on the double that it stands for.
-/

namespace ViewBinding.Json

/-- The ways to spell a character in a text: as itself, as an escape letter, by four hexadecimal
digits, or as a pair of surrogates. -/
inductive CharSpelled : List Char → Char → Prop
  | plain {c} : isControl c = false → c ≠ '"' → c ≠ '\\' → CharSpelled [c] c
  | letter {e c} : escapeLetter? e = some c → CharSpelled ['\\', e] c
  | quad {ds n} : hexQuad? ds = some n → ¬(0xD800 ≤ n ∧ n ≤ 0xDFFF) →
      CharSpelled ('\\' :: 'u' :: ds) (Char.ofNat n)
  | pair {ds es n m} : hexQuad? ds = some n → 0xD800 ≤ n ∧ n ≤ 0xDBFF →
      hexQuad? es = some m → 0xDC00 ≤ m ∧ m ≤ 0xDFFF →
      CharSpelled ('\\' :: 'u' :: (ds ++ '\\' :: 'u' :: es))
        (Char.ofNat (0x10000 + (n - 0xD800) * 0x400 + (m - 0xDC00)))

/-- Characters are spelled one after the other. -/
inductive CharsSpelled : List Char → List Char → Prop
  | nil : CharsSpelled [] []
  | cons {cs c ds xs} : CharSpelled cs c → CharsSpelled ds xs → CharsSpelled (cs ++ ds) (c :: xs)

/-- A text stands between quotes. -/
inductive TextSpelled : List Char → String → Prop
  | quoted {cs s} : CharsSpelled cs s.toList → TextSpelled ('"' :: cs ++ ['"']) s

/-- The number that digits spell. -/
def decimalValue (ds : List Char) : Nat := ds.foldl (fun n d => n * 10 + digitValue d) 0

/-- Digits, at least one. -/
def IsDigits (ds : List Char) : Prop := ds ≠ [] ∧ ∀ d ∈ ds, d.isDigit = true

/-- The digits of a whole number begin with a zero only if there is no other. -/
structure IsWhole (ds : List Char) : Prop where
  digits : IsDigits ds
  leading : ds.head? = some '0' → ds = ['0']

/-- The fraction of a number, if there is one. -/
inductive IsFraction : List Char → Prop
  | none : IsFraction []
  | some {ds} : IsDigits ds → IsFraction ('.' :: ds)

/-- The exponent of a number, if there is one. -/
inductive IsExponent : List Char → Prop
  | none : IsExponent []
  | some {e sign ds} : e = 'e' ∨ e = 'E' → sign = [] ∨ sign = ['+'] ∨ sign = ['-'] → IsDigits ds →
      IsExponent (e :: sign ++ ds)

/-- The sign of a number, if it is negative. -/
def writtenSign (negative : Bool) : List Char := if negative then ['-'] else []

/-- A number without fraction and exponent, if it fits 64 bits. There is no negative zero. -/
def wholeInteger? (negative : Bool) (n : Nat) : Option Int :=
  if negative then if n = 0 ∨ UInt64.size / 2 < n then none else some (-n)
  else if n < UInt64.size then some n else none

/-- The ways to spell a number. -/
inductive NumberSpelled : List Char → Numeral → Prop
  | integer {negative ds n} : IsWhole ds → wholeInteger? negative (decimalValue ds) = some n →
      NumberSpelled (writtenSign negative ++ ds) (.integer n)
  | decimal {negative ds fraction exponent x} : IsWhole ds → IsFraction fraction →
      IsExponent exponent →
      (fraction = [] → exponent = [] → wholeInteger? negative (decimalValue ds) = none) →
      NumberSpelled (writtenSign negative ++ ds ++ fraction ++ exponent) (.decimal negative x)

/-- Only blanks. -/
def IsBlank (cs : List Char) : Prop := ∀ c ∈ cs, isBlank c = true

/-- Things are spelled with commas between them. Blanks may stand after each of them and after each
comma. -/
inductive Separated {α : Type} (P : List Char → α → Prop) : List Char → List α → Prop
  | one {cs a after} : P cs a → IsBlank after → Separated P (cs ++ after) [a]
  | cons {cs a after before ds more} : P cs a → IsBlank after → IsBlank before →
      Separated P ds more → Separated P (cs ++ after ++ ',' :: before ++ ds) (a :: more)

/-- A member is its key and its value with a colon between them. -/
inductive MemberSpelled (P : List Char → Value → Prop) : List Char → String × Value → Prop
  | mk {ks k after before cs v} : TextSpelled ks k → IsBlank after → IsBlank before → P cs v →
      MemberSpelled P (ks ++ after ++ ':' :: before ++ cs) (k, v)

/-- The ways to spell a value. -/
inductive Spelled : List Char → Value → Prop
  | null : Spelled "null".toList .null
  | boolean (b : Bool) : Spelled (toString b).toList (.boolean b)
  | number {cs n} : NumberSpelled cs n → Spelled cs (.number n)
  | text {cs s} : TextSpelled cs s → Spelled cs (.text s)
  | emptyList {inner} : IsBlank inner → Spelled ('[' :: inner ++ [']']) (.list [])
  | list {before cs vs} : IsBlank before → Separated Spelled cs vs →
      Spelled ('[' :: before ++ cs ++ [']']) (.list vs)
  | emptyObject {inner} : IsBlank inner → Spelled ('\x7b' :: inner ++ ['\x7d']) (.object [])
  | object {before cs ms} : IsBlank before → Separated (MemberSpelled Spelled) cs ms →
      Spelled ('\x7b' :: before ++ cs ++ ['\x7d']) (.object ms)

/-- A document spells a value between blanks. -/
inductive DocumentSpelled : String → Value → Prop
  | mk {document before cs v after} : IsBlank before → Spelled cs v → IsBlank after →
      document.toList = before ++ cs ++ after → DocumentSpelled document v

/-- The characters that a value may begin with. -/
def Value.OpensWith (v : Value) (c : Char) : Prop :=
  match v with
  | null => c = 'n'
  | boolean b => c = if b then 't' else 'f'
  | number _ => c = '-' ∨ c.isDigit = true
  | text _ => c = '"'
  | list _ => c = '['
  | object _ => c = '\x7b'

section Heads

variable {cs : List Char} {v : Value} {c : Char}

theorem spelled_number_iff {n : Numeral} : Spelled cs (.number n) ↔ NumberSpelled cs n :=
  ⟨fun | .number h => h, .number⟩

theorem spelled_text_iff {s : String} : Spelled cs (.text s) ↔ TextSpelled cs s :=
  ⟨fun | .text h => h, .text⟩

theorem spelled_null_iff : Spelled cs .null ↔ cs = "null".toList :=
  ⟨fun | .null => rfl, fun h => h ▸ .null⟩

theorem spelled_boolean_iff {b : Bool} : Spelled cs (.boolean b) ↔ cs = (toString b).toList :=
  ⟨fun | .boolean _ => rfl, fun h => h ▸ .boolean b⟩

/-- A number begins with a sign or a digit. -/
theorem NumberSpelled.exists_cons {n : Numeral} (h : NumberSpelled cs n) :
    ∃ c tail, cs = c :: tail ∧ (c = '-' ∨ c.isDigit = true) := by
  have hbegins : ∀ {negative ds} (more : List Char), IsWhole ds → ∃ c tail,
      writtenSign negative ++ ds ++ more = c :: tail ∧ (c = '-' ∨ c.isDigit = true) := by
    intro negative ds more hwhole
    obtain ⟨d, rest, rfl⟩ := List.exists_cons_of_ne_nil hwhole.digits.1
    cases negative with
    | true => exact ⟨'-', _, rfl, .inl rfl⟩
    | false => exact ⟨d, _, rfl, .inr (hwhole.digits.2 d (List.mem_cons_self ..))⟩
  cases h with
  | integer hwhole _ => simpa using hbegins [] hwhole
  | decimal hwhole _ _ _ =>
    rw [List.append_assoc]
    exact hbegins _ hwhole

/-- A value begins with a character of its kind. -/
theorem Spelled.exists_cons (h : Spelled cs v) : ∃ c tail, cs = c :: tail ∧ v.OpensWith c := by
  cases h with
  | null => exact ⟨'n', _, rfl, rfl⟩
  | boolean b => cases b <;> exact ⟨_, _, rfl, rfl⟩
  | number hn => exact hn.exists_cons
  | text ht =>
    cases ht
    exact ⟨'"', _, rfl, rfl⟩
  | emptyList | list => exact ⟨'[', _, rfl, rfl⟩
  | emptyObject | object => exact ⟨'\x7b', _, rfl, rfl⟩

theorem Spelled.ne_nil (h : Spelled cs v) : cs ≠ [] := by
  obtain ⟨c, tail, rfl, -⟩ := h.exists_cons
  exact List.cons_ne_nil c tail

/-- A digit is neither a blank nor one of the other characters that a value begins with. -/
theorem ne_of_isDigit (h : c.isDigit = true) :
    isBlank c = false ∧ c ≠ 'n' ∧ c ≠ 't' ∧ c ≠ 'f' ∧ c ≠ '"' ∧ c ≠ '[' ∧ c ≠ '\x7b' ∧ c ≠ '-' := by
  have hne : ∀ d : Char, d.isDigit = false → c ≠ d := by
    rintro d hd rfl
    exact Bool.false_ne_true (hd.symm.trans h)
  refine ⟨?_, hne _ rfl, hne _ rfl, hne _ rfl, hne _ rfl, hne _ rfl, hne _ rfl, hne _ rfl⟩
  simp [isBlank, hne ' ' rfl, hne '\n' rfl, hne '\t' rfl, hne '\r' rfl]

/-- No value begins with a blank. -/
theorem Value.OpensWith.isBlank_eq_false (h : v.OpensWith c) : isBlank c = false := by
  cases v with
  | number n =>
    rcases h with rfl | hdigit
    · decide
    · exact (ne_of_isDigit hdigit).1
  | boolean b =>
    obtain rfl := h
    cases b <;> decide
  | null | text | list | object =>
    obtain rfl := h
    decide

/-- Is there nothing to escape in a text? -/
def isUnescaped (s : String) : Bool :=
  s.toList.all fun c => !isControl c && c != '"' && c != '\\'

/-- A text with nothing to escape is spelled by its characters. -/
theorem textSpelled_of_isUnescaped {s : String} (h : isUnescaped s = true) :
    TextSpelled ('"' :: s.toList ++ ['"']) s := by
  refine .quoted ?_
  unfold isUnescaped at h
  generalize s.toList = cs at h
  induction cs with
  | nil => exact .nil
  | cons c cs ih =>
    simp only [List.all_cons, Bool.and_eq_true, Bool.not_eq_true', bne_iff_ne] at h
    obtain ⟨⟨⟨hcontrol, hquote⟩, hback⟩, hmore⟩ := h
    exact .cons (.plain hcontrol hquote hback) (ih hmore)

/-- A member begins with the quote of its key. -/
theorem MemberSpelled.exists_cons {P : List Char → Value → Prop} {m : String × Value}
    (h : MemberSpelled P cs m) : ∃ tail, cs = '"' :: tail := by
  obtain ⟨⟨_⟩, _⟩ := h
  exact ⟨_, rfl⟩

end Heads

end ViewBinding.Json
