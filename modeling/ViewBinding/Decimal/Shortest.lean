import ViewBinding.Decimal.Double

/-!
# Shortest decimals

The decimal with the fewest digits that reads back as a given double: it lies in the interval of
numbers that round to the double (the ends belong to it when the mantissa is even). Of the decimals
of that length in the interval the nearest one is taken, and of two equally near ones the even.

The search goes through grids of decimals, coarse to fine. On a grid only the two neighbours of the
double can be nearest, so no other decimal is looked at.
-/

namespace ViewBinding

/-- The number `digits * 10 ^ exponent`. -/
structure Decimal where
  digits : Nat
  exponent : Int
  deriving DecidableEq, Repr

namespace Double

/-- The double and the ends of its rounding interval, over a common denominator. -/
structure Interval where
  low : Nat
  value : Nat
  high : Nat
  den : Nat
  /-- Do the ends round to the double? -/
  closed : Bool

/-- The rounding interval of a positive double. The gap below is half as wide at a power of two. -/
def interval (x : Double) : Interval :=
  let narrow := x.mantissa = Nat.pow 2 (precision - 1) ∧ minExponent < x.exponent
  let num := Nat.pow 2 x.exponent.toNat
  { low := (4 * x.mantissa - if narrow then 1 else 2) * num
    value := 4 * x.mantissa * num
    high := (4 * x.mantissa + 2) * num
    den := 4 * Nat.pow 2 (-x.exponent).toNat
    closed := x.mantissa % 2 = 0 }

namespace Interval

/-- Is `n * 10 ^ e` in the interval? -/
def holds (i : Interval) (n : Nat) (e : Int) : Bool :=
  let scaled := n * Nat.pow 10 e.toNat * i.den
  let unit := Nat.pow 10 (-e).toNat
  if i.closed then i.low * unit ≤ scaled && scaled ≤ i.high * unit
  else i.low * unit < scaled && scaled < i.high * unit

/-- The multiple of `10 ^ e` in the interval that is nearest to the double, if there is one. -/
def hit? (i : Interval) (e : Int) : Option Nat :=
  let num := i.value * Nat.pow 10 (-e).toNat
  let den := i.den * Nat.pow 10 e.toNat
  let below := num / den
  let nearest := roundQuotient num den
  let other := if nearest = below then below + 1 else below
  if i.holds nearest e then some nearest
  else if i.holds other e then some other
  else none

/-- Go down from exponent `e` for at most `steps` grids until one has a hit. -/
def search (i : Interval) : Nat → Int → Decimal
  | 0, e => ⟨i.value / i.den, e⟩
  | steps + 1, e =>
    match i.hit? e with
    | some n => ⟨n, e⟩
    | none => i.search steps (e - 1)

end Interval

/-- The shortest decimal of a positive double; zero is no digits at all. Doubles lie below
`10 ^ 309` and have at most 17 digits, the least being above `10 ^ -324`. -/
def shortest (x : Double) : Decimal :=
  if x.mantissa = 0 then ⟨0, 0⟩ else x.interval.search 640 309

end Double

/-- How a decimal is written: which magnitudes have no exponent. -/
structure DecimalStyle where
  /-- The least place of the first digit that is written out; `0` is the first after the point. -/
  lowest : Int
  /-- The greatest place of the first digit that is written out. -/
  highest : Int

namespace Decimal

/-- The decimal digits of a natural number. -/
def digitsOf (n : Nat) : List Char := Nat.toDigits 10 n

/-- Write a decimal: positional with at least one digit after the point where the style allows, else
with one digit before the point and a signed exponent. -/
def render (style : DecimalStyle) (d : Decimal) : String :=
  let ds := digitsOf d.digits
  let place : Int := d.exponent + ds.length
  if d.digits = 0 then "0.0"
  else if style.lowest ≤ place ∧ place ≤ style.highest then
    if 0 ≤ d.exponent then String.ofList (ds ++ List.replicate d.exponent.toNat '0' ++ ".0".toList)
    else if 0 < place then
      String.ofList (ds.take place.toNat ++ '.' :: ds.drop place.toNat)
    else String.ofList ("0.".toList ++ List.replicate (-place).toNat '0' ++ ds)
  else
    let mantissa := match ds with
      | first :: second :: more => first :: '.' :: second :: more
      | one => one
    let power := place - 1
    let sign := if power < 0 then '-' else '+'
    String.ofList (mantissa ++ 'e' :: sign :: digitsOf power.natAbs)

end Decimal

end ViewBinding
