/-!
Double-precision numbers.  A finite number is an exact dyadic fraction, so
order and equality are those of the fractions; `Number.round` brings an exact
result back to the nearest number that has 53 binary digits.
-/

namespace ObjectPath

/-! ## Numbers -/

/-- A number is not a number, an infinity, a negative zero, or a fraction whose
denominator is a power of two. -/
inductive Number
  | nan
  | infinity (negative : Bool)
  | negativeZero
  | finite (value : Dyadic)
  deriving DecidableEq

instance : Inhabited Number :=
  ⟨.nan⟩

/-- A place on the number line closed by both infinities. -/
inductive Point
  | below
  | at (value : Dyadic)
  | above
  deriving DecidableEq

namespace Point

def before : Point → Point → Bool
  | .below, .below => false
  | .below, _ => true
  | .at _, .below => false
  | .at left, .at right => decide (left < right)
  | .at _, .above => true
  | .above, _ => false

def ofInt (value : Int) : Point :=
  .at (Dyadic.ofInt value)

end Point

namespace Number

/-- Where a number lies; both zeros lie at zero and `nan` lies nowhere. -/
def point? : Number → Option Point
  | .nan => none
  | .infinity true => some .below
  | .infinity false => some .above
  | .negativeZero => some (.at 0)
  | .finite value => some (.at value)

/-- Numbers are equal when they lie at the same place; `nan` equals nothing. -/
def equal (left right : Number) : Bool :=
  match left.point?, right.point? with
  | some first, some second => first == second
  | _, _ => false

/-- The number of an integer, without rounding. -/
def ofInt (value : Int) : Number :=
  .finite (Dyadic.ofInt value)

def ofNat (value : Nat) : Number :=
  ofInt value

def toInt? : Number → Option Int
  | .negativeZero => some 0
  | .finite .zero => some 0
  | .finite (.ofOdd numerator exponent _) =>
      if exponent ≤ 0 then
        some (numerator * Nat.pow 2 (-exponent).toNat)
      else
        none
  | _ => none

/-! ## Rounding -/

/-- The quotient of two naturals rounded to the nearest natural, a half going to
the even neighbour. -/
def divideToEven (numerator denominator : Nat) : Nat :=
  let quotient := numerator / denominator
  let twice := 2 * (numerator % denominator)
  if denominator < twice || (twice == denominator && quotient % 2 == 1) then
    quotient + 1
  else
    quotient

/-- The binary exponent of the last of 53 digits of a positive fraction, not
below the least exponent of all. -/
def lastExponent (numerator denominator : Nat) : Int :=
  let guess : Int := (numerator.log2 : Int) - (denominator.log2 : Int)
  let reaches :=
    if 0 ≤ guess then
      denominator * Nat.pow 2 guess.toNat ≤ numerator
    else
      denominator ≤ numerator * Nat.pow 2 (-guess).toNat
  let leading := if reaches then guess else guess - 1
  max (leading - 52) (-1074)

/-- The double-precision number nearest to a fraction. -/
def ofRatio (negative : Bool) (numerator denominator : Nat) : Number :=
  if numerator = 0 then
    if negative then .negativeZero else .finite 0
  else
    let exponent := lastExponent numerator denominator
    let mantissa :=
      if 0 ≤ exponent then
        divideToEven numerator (denominator * Nat.pow 2 exponent.toNat)
      else
        divideToEven (numerator * Nat.pow 2 (-exponent).toNat) denominator
    if mantissa = 0 then
      if negative then .negativeZero else .finite 0
    else if 0 ≤ exponent && Nat.pow 2 1024 ≤ mantissa * Nat.pow 2 exponent.toNat then
      .infinity negative
    else
      .finite (Dyadic.ofIntWithPrec (if negative then -mantissa else mantissa) (-exponent))

/-- The double-precision number nearest to a dyadic fraction. -/
def round : Dyadic → Number
  | .zero => .finite 0
  | .ofOdd numerator exponent _ =>
      if 0 ≤ exponent then
        ofRatio (numerator < 0) numerator.natAbs (Nat.pow 2 exponent.toNat)
      else
        ofRatio (numerator < 0) (numerator.natAbs * Nat.pow 2 (-exponent).toNat) 1

/-- The double-precision number nearest to `mantissa` times a power of ten. -/
def ofDecimal (negative : Bool) (mantissa : Nat) (exponent : Int) : Number :=
  if 0 ≤ exponent then
    ofRatio negative (mantissa * Nat.pow 10 exponent.toNat) 1
  else
    ofRatio negative mantissa (Nat.pow 10 (-exponent).toNat)

/-! ## Arithmetic -/

def negate : Number → Number
  | .nan => .nan
  | .infinity negative => .infinity (!negative)
  | .negativeZero => .finite 0
  | .finite .zero => .negativeZero
  | .finite value => .finite (-value)

def add : Number → Number → Number
  | .nan, _ => .nan
  | _, .nan => .nan
  | .infinity first, .infinity second => if first == second then .infinity first else .nan
  | .infinity negative, _ => .infinity negative
  | _, .infinity negative => .infinity negative
  | .negativeZero, other => other
  | other, .negativeZero => other
  | .finite left, .finite right => round (left + right)

def subtract (left right : Number) : Number :=
  add left right.negate

end Number

end ObjectPath
