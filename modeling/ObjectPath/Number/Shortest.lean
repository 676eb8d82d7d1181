import ObjectPath.Number.Basic

/-!
Shortest decimals.  A positive double-precision number is written with the
fewest decimal digits that still round to it, and of those with the digits
nearest to it, a tie going to the even digits.
-/

namespace ObjectPath.Number

/-! ## Rounding interval -/

/-- A positive number with the interval that rounds to it: the number is `value`,
its bounds are `low` and `high`, all counted in the same unit
`scale / divisor`, and `closed` says whether the bounds themselves round to it. -/
structure Interval where
  low : Nat
  value : Nat
  high : Nat
  scale : Nat
  divisor : Nat
  closed : Bool

/-- The interval of numbers that round to `odd * 2 ^ -exponent`.  Below a power of
two the neighbours are twice as near as above it. -/
def roundingInterval (odd : Nat) (exponent : Int) : Interval :=
  let digits : Int := odd.log2 + 1
  let last := max (-exponent - (53 - digits)) (-1074)
  let mantissa := odd * Nat.pow 2 (-exponent - last).toNat
  { low := if mantissa = Nat.pow 2 52 && -1074 < last then 4 * mantissa - 1 else 4 * mantissa - 2
    value := 4 * mantissa
    high := 4 * mantissa + 2
    scale := Nat.pow 2 (last - 2).toNat
    divisor := Nat.pow 2 (2 - last).toNat
    closed := mantissa % 2 == 0 }

namespace Interval

/-- Whether `digits` times a power of ten lies in the interval. -/
def holds (interval : Interval) (digits : Nat) (exponent : Int) : Bool :=
  let left := interval.scale * Nat.pow 10 (-exponent).toNat
  let right := digits * Nat.pow 10 exponent.toNat * interval.divisor
  if interval.closed then
    interval.low * left ≤ right && right ≤ interval.high * left
  else
    interval.low * left < right && right < interval.high * left

/-- Distance from the number to `digits` times a power of ten, in a unit that
depends on the exponent only. -/
def distance (interval : Interval) (digits : Nat) (exponent : Int) : Nat :=
  let left := interval.value * interval.scale * Nat.pow 10 (-exponent).toNat
  let right := digits * Nat.pow 10 exponent.toNat * interval.divisor
  if left ≤ right then right - left else left - right

/-- The number of digits before the decimal point, negative when zeros follow it. -/
def leadingPlace (interval : Interval) : Int :=
  let numerator := interval.value * interval.scale
  if interval.divisor ≤ numerator then
    (Nat.toDigits 10 (numerator / interval.divisor)).length
  else
    1 - (Nat.toDigits 10 (interval.divisor / numerator)).length

/-- The nearer of the number's two neighbours on the decimal grid of an exponent, if one
of them lies in the interval.  Of two that are equally near the even one is better. -/
def candidate? (interval : Interval) (exponent : Int) : Option Nat :=
  let numerator := interval.value * interval.scale * Nat.pow 10 (-exponent).toNat
  let lower := numerator / (Nat.pow 10 exponent.toNat * interval.divisor)
  match interval.holds lower exponent, interval.holds (lower + 1) exponent with
  | true, true =>
      let below := interval.distance lower exponent
      let above := interval.distance (lower + 1) exponent
      if above < below || (above == below && lower % 2 == 1) then
        some (lower + 1)
      else
        some lower
  | true, false => some lower
  | false, true => some (lower + 1)
  | false, false => none

end Interval

/-! ## Digits -/

/-- Digits without zeros at the end, and the exponent that makes up for them. -/
def stripZeros (digits : Nat) (exponent : Int) : Nat × Int :=
  if positive : 0 < digits ∧ digits % 10 = 0 then
    stripZeros (digits / 10) (exponent + 1)
  else
    (digits, exponent)
termination_by digits
decreasing_by omega

/-- The shortest decimal of `odd * 2 ^ -exponent`: digits and a power of ten. -/
def shortest (odd : Nat) (exponent : Int) : Nat × Int :=
  let interval := roundingInterval odd exponent
  let place := interval.leadingPlace
  let found := (List.range 18).findSome? fun count =>
    let grid := place - (count + 1 : Nat)
    (interval.candidate? grid).map fun digits => (digits, grid)
  match found with
  | some (digits, grid) => stripZeros digits grid
  | none => (odd, -exponent)

end ObjectPath.Number
