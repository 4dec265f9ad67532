/-!
# Numbers in the 64-bit binary format

A number of the format is a mantissa below 2⁵³ times a power of two, or an infinity, or no number.

* `Binary64.ofDecimal` rounds a decimal number to the nearest number of the format; of two that are equally
  near, to the one with the even mantissa.
* `Binary64.shortest` gives the fewest decimal digits that are rounded back to the number, and of several
  such decimals the one nearest to it.

All of it is exact arithmetic on natural numbers: a positive number is a fraction `num / den`.
-/

namespace ClassComponent

/-- A number of the 64-bit binary format. -/
inductive Binary64 where
  /-- The number `mantissa * 2 ^ exponent`, with a sign that zero has too. -/
  | finite (isNegative : Bool) (mantissa : Nat) (exponent : Int)
  | infinity (isNegative : Bool)
  /-- What is no number. -/
  | undefined
deriving DecidableEq, Repr, Inhabited

namespace Binary64

/-! ## Rounding -/

/-- The number of bits of a mantissa. -/
def precision : Nat := 53

/-- The least exponent. -/
def leastExponent : Int := -1074

/-- The greatest exponent. -/
def greatestExponent : Int := 971

/-- A fraction rounded to the nearest whole number, half of one to the even neighbour. -/
def roundDiv (num den : Nat) : Nat :=
  let quotient := num / den
  let rest := num % den
  if 2 * rest > den || (2 * rest == den && quotient % 2 == 1) then quotient + 1 else quotient

/-- The fraction `num / den` divided by `base ^ exponent`. -/
def scaleDown (num den base : Nat) (exponent : Int) : Nat × Nat :=
  if 0 ≤ exponent then (num, den * Nat.pow base exponent.toNat)
  else (num * Nat.pow base (-exponent).toNat, den)

/-- The exponent with which a positive fraction has a mantissa of full length, or the least one. -/
def exponentFor (num den : Nat) : Int :=
  let guess := max ((num.log2 : Int) - den.log2 - precision) leastExponent
  let (n, d) := scaleDown num den 2 guess
  if n / d < Nat.pow 2 precision then guess else guess + 1

/-- The number nearest to a positive fraction. -/
def ofFraction (isNegative : Bool) (num den : Nat) : Binary64 :=
  let exponent := exponentFor num den
  let (n, d) := scaleDown num den 2 exponent
  let rounded := roundDiv n d
  let (mantissa, exponent) :=
    if rounded == Nat.pow 2 precision then (Nat.pow 2 (precision - 1), exponent + 1)
    else (rounded, exponent)
  if exponent > greatestExponent then .infinity isNegative else .finite isNegative mantissa exponent

/-- The number of digits of a positive number. -/
def digitCount (n : Nat) : Nat :=
  (Nat.toDigits 10 n).length

/-- A number with more digits before its point than this is infinite. -/
def mostPlaces : Int := 310

/-- A number with more zeros after its point than this is zero. -/
def mostZeros : Int := 330

/-- The number nearest to `mantissa * 10 ^ exponent`. -/
def ofDecimal (isNegative : Bool) (mantissa : Nat) (exponent : Int) : Binary64 :=
  let places := digitCount mantissa + exponent
  if mantissa == 0 || places < -mostZeros then .finite isNegative 0 leastExponent
  else if places > mostPlaces then .infinity isNegative
  else
    let (num, den) := scaleDown mantissa 1 10 (-exponent)
    ofFraction isNegative num den

/-- Whether a number is zero. -/
def isZero : Binary64 → Bool
  | .finite _ mantissa _ => mantissa == 0
  | _ => false

/-! ## Shortest decimals -/

/-- The fractions that are rounded to a positive number: those between two bounds, which belong to them
if `isClosed`. All are given in units of `unit`, a fraction. -/
structure Interval where
  low : Nat
  value : Nat
  high : Nat
  unit : Nat × Nat
  isClosed : Bool

/-- The interval of `mantissa * 2 ^ exponent`, in quarters of its last bit. The neighbour below a power of
two is nearer than the one above. -/
def interval (mantissa : Nat) (exponent : Int) : Interval :=
  let isPower := mantissa == Nat.pow 2 (precision - 1) && leastExponent < exponent
  { low := 4 * mantissa - (if isPower then 1 else 2)
    value := 4 * mantissa
    high := 4 * mantissa + 2
    unit := scaleDown 1 1 2 (2 - exponent)
    isClosed := mantissa % 2 == 0 }

namespace Interval

/-- Whether `digits * 10 ^ exponent` lies in the interval. -/
def holds (i : Interval) (digits : Nat) (exponent : Int) : Bool :=
  let (num, den) := scaleDown digits 1 10 (-exponent)
  let point := num * i.unit.2
  let scale := i.unit.1 * den
  if i.isClosed then i.low * scale ≤ point && point ≤ i.high * scale
  else i.low * scale < point && point < i.high * scale

/-- The power of ten that the number's first digit counts. -/
def leadingPower (i : Interval) : Int :=
  let digits := i.value * i.unit.1 * Nat.pow 10 mostZeros.toNat / i.unit.2
  digitCount digits - 1 - mostZeros

/-- A decimal of `count` digits in the interval, the nearest to the number. -/
def decimal? (i : Interval) (count : Nat) : Option (Nat × Int) :=
  let exponent := i.leadingPower + 1 - count
  let (num, den) := scaleDown (i.value * i.unit.1) i.unit.2 10 exponent
  let below := num / den
  match i.holds below exponent, i.holds (below + 1) exponent with
  | true, true => some (roundDiv num den, exponent)
  | true, false => some (below, exponent)
  | false, true => some (below + 1, exponent)
  | false, false => none

end Interval

/-- The most digits that a shortest decimal has. -/
def mostDigits : Nat := 17

/-- The shortest decimal of `mantissa * 2 ^ exponent`: its digits, and the power of ten that the last of
them counts. -/
def shortest (mantissa : Nat) (exponent : Int) : Nat × Int :=
  let i := interval mantissa exponent
  ((List.range' 1 mostDigits).findSome? i.decimal?).getD (0, 0)

end Binary64

end ClassComponent
