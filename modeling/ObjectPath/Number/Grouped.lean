import ObjectPath.Number.Shortest

/-!
Numbers for readers: the digits before the point stand in groups of three, and at most
three digits follow the point.
-/

namespace ObjectPath.Number

/-! ## Groups -/

/-- Digits in groups of three from the right, with commas between the groups. -/
def groupDigits (digits : List Char) : List Char :=
  if _long : 3 < digits.length then
    groupDigits (digits.take (digits.length - 3)) ++ ',' :: digits.drop (digits.length - 3)
  else
    digits
termination_by digits.length
decreasing_by simp only [List.length_take]; omega

def groupedNat (value : Nat) : List Char :=
  groupDigits (Nat.toDigits 10 value)

def groupedInteger (value : Int) : String :=
  String.ofList (if value < 0 then '-' :: groupedNat value.natAbs else groupedNat value.natAbs)

/-! ## Fractions -/

/-- The thousandths of a decimal, a half going up. -/
def thousandths (digits : Nat) (power : Int) : Nat :=
  let divisor := Nat.pow 10 (-power - 3).toNat
  (2 * digits * Nat.pow 10 (power + 3).toNat + divisor) / (2 * divisor)

/-- The point and the digits after it for a count of thousandths below a thousand. -/
def fractionOfThousandths (count : Nat) : List Char :=
  let digits := Nat.toDigits 10 (1000 + count)
  match (digits.drop 1).reverse.dropWhile (· == '0') with
  | [] => []
  | kept => '.' :: kept.reverse

/-- The text of `odd * 2 ^ -exponent` in groups. -/
def groupedFraction (odd : Nat) (exponent : Int) : List Char :=
  let (digits, power) := shortest odd exponent
  let count := thousandths digits power
  groupedNat (count / 1000) ++ fractionOfThousandths (count % 1000)

/-- The text of a number in groups; a sign stays even where only zeros follow it. -/
def groupedText : Number → String
  | .nan => "NaN"
  | .infinity true => "-∞"
  | .infinity false => "∞"
  | .negativeZero => "-0"
  | .finite .zero => "0"
  | .finite (.ofOdd numerator exponent _) =>
      let text := groupedFraction numerator.natAbs exponent
      String.ofList (if numerator < 0 then '-' :: text else text)

end ObjectPath.Number
