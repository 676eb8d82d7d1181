import ObjectPath.Number.Basic

/-!
Numbers written in bases from 2 to 36.  A big integer has exact digits.  A
double-precision number has the digits that tell it from its neighbours: the fraction is
multiplied out digit by digit, in double precision, until what is left of it is less
than half the distance to the next number.
-/

namespace ObjectPath

/-! ## Digits -/

namespace Number

/-- The digit of a value below 36. -/
def baseDigit (value : Nat) : Char :=
  "0123456789abcdefghijklmnopqrstuvwxyz".toList.getD value '0'

/-- The digits of a natural number in a base, in front of others. -/
def digitsBefore (base : Nat) (value : Nat) (digits : List Nat) : List Nat :=
  if _large : 2 ≤ base ∧ base ≤ value then
    digitsBefore base (value / base) (value % base :: digits)
  else
    value :: digits
termination_by value
decreasing_by exact Nat.div_lt_self (by omega) (by omega)

def integerText (base : Nat) (value : Int) : String :=
  let digits := String.ofList ((digitsBefore base value.natAbs []).map baseDigit)
  if value < 0 then "-" ++ digits else digits

/-! ## Double precision -/

/-- The double-precision number nearest to a positive fraction. -/
def nearest (value : Dyadic) : Dyadic :=
  match round value with
  | .finite rounded => rounded
  | _ => 0

/-- The double-precision number nearest to a positive fraction divided by a base. -/
def dividedBy (value : Dyadic) (base : Nat) : Dyadic :=
  let ratio := value.toRat
  match ofRatio false ratio.num.natAbs (ratio.den * base) with
  | .finite quotient => quotient
  | _ => 0

/-- Half the distance from a positive number to the next one, but not less than the least
positive number. -/
def halfStep (numerator : Nat) (exponent : Int) : Dyadic :=
  let leading := (numerator.log2 : Int) - exponent
  let last := max (leading - 52) (-1074)
  Dyadic.ofIntWithPrec 1 (-(max (last - 1) (-1074)))

def wholeOf (value : Dyadic) : Nat :=
  value.toRat.floor.toNat

/-! ## Fractions -/

/-- Adds one to the last digit of some digits, the last of them first, with the carries
that this needs.  Nothing is left if the carry goes past the first digit. -/
def increment (base : Nat) (digits : List Nat) : List Nat :=
  match digits.dropWhile (· + 1 == base) with
  | [] => []
  | digit :: rest => (digit + 1) :: rest

/-- The digits of a fraction, the last of them first and after those in `digits`, and
whether they carry into the whole part.  The precision left is `step`. -/
def fractionDigits (base : Nat) : Nat → Dyadic → Dyadic → List Nat → List Nat × Bool
  | 0, _, _, digits => (digits, false)
  | fuel + 1, fraction, step, digits =>
      let scaled := nearest (fraction * Dyadic.ofInt base)
      let step := nearest (step * Dyadic.ofInt base)
      let digit := wholeOf scaled
      let rest := scaled - Dyadic.ofInt digit
      let digits := digit :: digits
      let half : Dyadic := Dyadic.ofIntWithPrec 1 1
      let isUpper := half < rest || (rest == half && digit % 2 == 1)
      if isUpper && 1 < nearest (rest + step) then
        let raised := increment base digits
        (raised, raised.isEmpty)
      else if step ≤ rest then
        fractionDigits base fuel rest step digits
      else
        (digits, false)

/-! ## Whole parts -/

/-- Divides a whole part down as long as what is left has more than 53 binary digits, and
counts the divisions. -/
def divideDown (base : Nat) : Nat → Dyadic → Nat → Dyadic × Nat
  | 0, whole, zeros => (whole, zeros)
  | fuel + 1, whole, zeros =>
      let quotient := dividedBy whole base
      if Dyadic.ofInt (2 ^ 53) ≤ quotient then
        divideDown base fuel quotient (zeros + 1)
      else
        (whole, zeros)

/-- What is left of a fraction after the greatest multiple of a base. -/
def remainderOf (value : Dyadic) (base : Nat) : Dyadic :=
  value - Dyadic.ofInt (wholeOf value / base * base)

/-- The digits of a whole part in front of others, divided out in double precision. -/
def dividedDigits (base : Nat) : Nat → Dyadic → List Nat → List Nat
  | 0, _, digits => digits
  | fuel + 1, whole, digits =>
      let remainder := remainderOf whole base
      let digits := wholeOf remainder :: digits
      let rest := dividedBy (nearest (whole - remainder)) base
      if 0 < rest then dividedDigits base fuel rest digits else digits

/-- The digits of a whole part: those past the precision are zeros. -/
def wholeDigits (base : Nat) (whole : Dyadic) : List Nat :=
  let (reduced, zeros) := divideDown base 1100 whole 0
  dividedDigits base 1100 reduced [] ++ List.replicate zeros 0

/-! ## Text -/

def positiveText (base : Nat) (value : Dyadic) (step : Dyadic) : String :=
  let whole := Dyadic.ofInt (wholeOf value)
  let fraction := value - whole
  let (digits, carries) :=
    if step ≤ fraction then fractionDigits base 1200 fraction step [] else ([], false)
  let whole := if carries then whole + 1 else whole
  let text := (wholeDigits base whole).map baseDigit
  String.ofList (if digits.isEmpty then text else text ++ '.' :: digits.reverse.map baseDigit)

/-- The text of a number in a base other than ten; both zeros are written alike. -/
def baseText (base : Nat) : Number → String
  | .nan => "NaN"
  | .infinity true => "-Infinity"
  | .infinity false => "Infinity"
  | .negativeZero => "0"
  | .finite .zero => "0"
  | .finite (.ofOdd numerator exponent odd) =>
      let step := halfStep numerator.natAbs exponent
      if numerator < 0 then "-" ++ positiveText base (-.ofOdd numerator exponent odd) step
      else positiveText base (.ofOdd numerator exponent odd) step

end Number

end ObjectPath
