import ViewBinding.Json.Reader

/-!
# Numbers

A number without fraction and exponent that fits 64 bits is an integer. Any other is a double: the
leading digits that fit 64 bits, rounded, then multiplied or divided by a rounded power of ten. That
is not always the nearest double, and a product beyond the format is refused.
-/

namespace ViewBinding.Json

/-- The value of a decimal digit. -/
def digitValue (c : Char) : Nat := c.toNat - '0'.toNat

/-- Go on reading digits into a number as long as it stays below `limit`. The digits from the first
one that does not fit are left. -/
def accumulate (limit : Nat) : Nat → List Char → Nat × List Char
  | n, [] => (n, [])
  | n, d :: rest =>
    let n' := n * 10 + digitValue d
    if n' < limit then accumulate limit n' rest else (n, d :: rest)

/-- The power of ten as a double. -/
def tenTo (k : Nat) : Double := (Double.ofNat? (Nat.pow 10 k)).getD .zero

/-- The greatest power of ten that is a double. -/
def maxTenPower : Nat := 308

/-- Divide by a power of ten, in several steps if one is not enough. -/
def divideByTenTo (x : Double) (k : Nat) : Double :=
  if k ≤ maxTenPower then (x.div? (tenTo k)).getD .zero
  else if x.mantissa = 0 then x
  else divideByTenTo ((x.div? (tenTo maxTenPower)).getD .zero) (k - maxTenPower)
termination_by k
decreasing_by simp [maxTenPower] at *; omega

/-- The double of a significand and a power of ten, unless it is beyond the format. -/
def scaleByTen (significand : Nat) (exponent : Int) : Option Double := do
  let x ← Double.ofNat? significand
  if 0 ≤ exponent then
    if exponent.toNat ≤ maxTenPower then x.mul? (tenTo exponent.toNat)
    else if x.mantissa = 0 then some x
    else none
  else some (divideByTenTo x (-exponent).toNat)

namespace Reader

/-- Read a run of digits. -/
def digits : Reader (List Char) := takeWhile Char.isDigit

/-- Give the double of the parts of a number. -/
def scaled (negative : Bool) (significand : Nat) (exponent : Int) : Reader Numeral :=
  match scaleByTen significand exponent with
  | some x => pure (.decimal negative x)
  | none => fail .numberOutOfRange

/-- Read the sign of an exponent: is it negative? -/
def exponentSign : Reader Bool := do
  match ← next? with
  | some '+' => do advance; pure false
  | some '-' => do advance; pure true
  | _ => pure false

/-- Read the exponent after its letter. An exponent that 32 bits do not hold makes zero, or is
refused if the number would be huge. -/
def exponent (negative : Bool) (significand : Nat) (start : Int) : Reader Numeral := do
  advance
  let down ← exponentSign
  match ← next? with
  | none => fail (.ended .value)
  | some c =>
    if c.isDigit then do
      let before : Cursor ← get
      let ds ← digits
      match accumulate (UInt32.size / 2) 0 ds with
      | (e, []) => scaled negative significand (if down then start - e else start + e)
      | (_, left) =>
        if significand ≠ 0 ∧ ¬down then
          failAt .numberOutOfRange (before.offset + (ds.length - left.length) + 1)
        else pure (.decimal negative .zero)
    else failNext .invalidNumber

/-- Read the exponent if there is one, else end the number. -/
def exponentOrEnd (negative : Bool) (significand : Nat) (start : Int) : Reader Numeral := do
  match ← next? with
  | some 'e' | some 'E' => exponent negative significand start
  | _ => scaled negative significand start

/-- Read the fraction from its point on. Digits beyond 64 bits are read and not counted. -/
def fraction (negative : Bool) (significand : Nat) (start : Int) : Reader Numeral := do
  advance
  let ds ← digits
  if ds.isEmpty then
    match ← next? with
    | some _ => failNext .invalidNumber
    | none => failNext (.ended .value)
  else
    let (n, left) := accumulate UInt64.size significand ds
    exponentOrEnd negative n (start - (ds.length - left.length : Nat))

/-- A significand with nothing after it. A negative zero and what is below 64 bits are doubles. -/
def wholeNumber (negative : Bool) (significand : Nat) : Reader Numeral :=
  if ¬negative then pure (.integer significand)
  else if significand = 0 ∨ UInt64.size / 2 < significand then scaled true significand 0
  else pure (.integer (-significand))

/-- Read what follows the digits before the point. -/
def afterDigits (negative : Bool) (significand : Nat) : Reader Numeral := do
  match ← next? with
  | some '.' => fraction negative significand 0
  | some 'e' | some 'E' => exponent negative significand 0
  | _ => wholeNumber negative significand

/-- Read what follows digits of which `dropped` did not fit 64 bits. -/
def afterLongDigits (negative : Bool) (significand dropped : Nat) : Reader Numeral := do
  match ← next? with
  | some '.' => fraction negative significand dropped
  | some 'e' | some 'E' => exponent negative significand dropped
  | _ => scaled negative significand dropped

/-- Read a number after its sign. Zero is the only number that begins with a zero. -/
def numeral (negative : Bool) : Reader Numeral := do
  match ← next? with
  | none => fail (.ended .value)
  | some '0' => do
    advance
    match ← next? with
    | some c => if c.isDigit then failNext .invalidNumber else afterDigits negative 0
    | none => afterDigits negative 0
  | some c =>
    if c.isDigit then do
      match accumulate UInt64.size 0 (← digits) with
      | (n, []) => afterDigits negative n
      | (n, left) => afterLongDigits negative n left.length
    else failNext .invalidNumber

end Reader

end ViewBinding.Json
