/-!
# Doubles

Non-negative finite numbers of the 64-bit floating-point format, as an integer times a power of
two. Every operation is exact rational arithmetic followed by one rounding to the nearest number of
the format, a tie going to the even mantissa. A number beyond the format is reported, not rounded.
-/

namespace ViewBinding

/-- The number `mantissa * 2 ^ exponent`. -/
structure Double where
  mantissa : Nat
  exponent : Int
  deriving DecidableEq, Repr

namespace Double

/-- The number of bits of a mantissa. -/
def precision : Nat := 53

/-- The exponent of the smallest numbers. -/
def minExponent : Int := -1074

/-- The exponent of the greatest numbers. -/
def maxExponent : Int := 971

/-- Zero. -/
def zero : Double := ⟨0, minExponent⟩

/-- A quotient rounded to the nearest integer, a tie to the even one. -/
def roundQuotient (num den : Nat) : Nat :=
  let q := num / den
  let twice := 2 * (num % den)
  if twice < den then q
  else if twice = den then q + q % 2
  else q + 1

/-- `num / (den * 2 ^ e)` as a quotient of natural numbers. -/
def scaled (num den : Nat) (e : Int) : Nat × Nat :=
  (num * Nat.pow 2 (-e).toNat, den * Nat.pow 2 e.toNat)

/-- The exponent at which a positive quotient has a mantissa of full length, or the least one. -/
def exponentOf (num den : Nat) : Int :=
  let e := (num.log2 : Int) - den.log2 - (precision - 1)
  let (n, d) := scaled num den e
  max minExponent (if n < d * Nat.pow 2 (precision - 1) then e - 1 else e)

/-- The number nearest to `num / den`; there is none if the quotient is beyond the format. -/
def ofQuotient? (num den : Nat) : Option Double :=
  if num = 0 then some zero
  else
    let e := exponentOf num den
    let (n, d) := scaled num den e
    let m := roundQuotient n d
    let x : Double := if m = Nat.pow 2 precision then ⟨Nat.pow 2 (precision - 1), e + 1⟩ else ⟨m, e⟩
    if maxExponent < x.exponent then none else some x

/-- The number as a quotient of natural numbers. -/
def toQuotient (x : Double) : Nat × Nat :=
  (x.mantissa * Nat.pow 2 x.exponent.toNat, Nat.pow 2 (-x.exponent).toNat)

/-- The rounded product, if it is not beyond the format. -/
def mul? (x y : Double) : Option Double :=
  ofQuotient? (x.toQuotient.1 * y.toQuotient.1) (x.toQuotient.2 * y.toQuotient.2)

/-- The rounded quotient, if the divisor is not zero and the result not beyond the format. -/
def div? (x y : Double) : Option Double :=
  if y.mantissa = 0 then none
  else ofQuotient? (x.toQuotient.1 * y.toQuotient.2) (x.toQuotient.2 * y.toQuotient.1)

/-- The number nearest to a natural number. -/
def ofNat? (n : Nat) : Option Double := ofQuotient? n 1

end Double

end ViewBinding
