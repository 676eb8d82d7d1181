import ObjectPath.Number.Shortest

/-!
The text of a number: shortest digits, laid out positionally between the two
limits of `NumberLayout` and with an exponent outside them.
-/

namespace ObjectPath

/-! ## Layout -/

/-- The range of magnitudes that are written without an exponent. -/
structure NumberLayout where
  /-- The greatest number of digits before the decimal point. -/
  greatestPlace : Int
  /-- The least place of the first digit, counted like the digits before the point. -/
  leastPlace : Int

/-- Numbers below `10 ^ 21` and not below `10 ^ -6` are written without an exponent. -/
def Number.layout : NumberLayout :=
  ⟨21, -5⟩

namespace Number

/-- Lays out `digits` so that the first of them has the given place. -/
def layOut (layout : NumberLayout) (digits : List Char) (place : Int) : List Char :=
  let count : Int := digits.length
  if count ≤ place && place ≤ layout.greatestPlace then
    digits ++ List.replicate (place - count).toNat '0'
  else if 0 < place && place ≤ layout.greatestPlace then
    digits.take place.toNat ++ '.' :: digits.drop place.toNat
  else if layout.leastPlace ≤ place && place ≤ 0 then
    '0' :: '.' :: (List.replicate (-place).toNat '0' ++ digits)
  else
    let exponent := place - 1
    let sign := if exponent < 0 then '-' else '+'
    let mark := 'e' :: sign :: Nat.toDigits 10 exponent.natAbs
    match digits with
    | [] => mark
    | [digit] => digit :: mark
    | digit :: rest => digit :: '.' :: (rest ++ mark)

/-- The text of `numerator * 2 ^ -exponent`. -/
def textOfFraction (numerator exponent : Int) : List Char :=
  let (digits, power) := shortest numerator.natAbs exponent
  let digits := Nat.toDigits 10 digits
  let text := layOut layout digits (digits.length + power)
  if numerator < 0 then '-' :: text else text

/-- The text of a number; both zeros are written alike. -/
def text : Number → String
  | .nan => "NaN"
  | .infinity true => "-Infinity"
  | .infinity false => "Infinity"
  | .negativeZero => "0"
  | .finite .zero => "0"
  | .finite (.ofOdd numerator exponent _) => String.ofList (textOfFraction numerator exponent)

end Number

end ObjectPath
