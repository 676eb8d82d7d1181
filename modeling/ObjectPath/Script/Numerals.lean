import ObjectPath.Number.Grouped
import ObjectPath.Number.Radix
import ObjectPath.Script.Objects

/-!
The texts of numbers and big integers as their members give them: in a base, with a
fixed count of fraction digits, or for readers.
-/

namespace ObjectPath.Run

/-! ## Bases -/

/-- The base that a value names; ten if it is undefined. -/
def baseOf (invoke : Invoker) (value : Value) : Run Nat := do
  if value = .undefined then
    pure 10
  else
    let base := wholePart (← numberOf invoke value)
    if 2 ≤ base && base ≤ 36 then pure base.toNat else throw (.range .radix)

def numberText (number : Number) (base : Nat) : String :=
  if base = 10 then number.text else number.baseText base

/-- The text of a receiver that is a number or a big integer, in the base that a value
names. -/
def baseReceiver (invoke : Invoker) (owner : BuiltinClass) (receiver base : Value) :
    Run Value := do
  let content ← simpleReceiver owner "toString" receiver
  let base ← baseOf invoke base
  match content with
  | .number number => pure (.string (numberText number base))
  | .bigint number => pure (.string (Number.integerText base number))
  | _ => pure .undefined

/-! ## Texts for readers -/

def groupedReceiver (owner : BuiltinClass) (receiver : Value) : Run Value := do
  match ← simpleReceiver owner "toLocaleString" receiver with
  | .number number => pure (.string number.groupedText)
  | .bigint number => pure (.string (Number.groupedInteger number))
  | _ => pure .undefined

/-! ## Fixed counts of fraction digits -/

/-- A number with `count` digits after the point, a half going up. -/
def fixedText (number : Number) (count : Nat) : String :=
  match number with
  | .finite (.ofOdd numerator exponent _) =>
      let top := numerator.natAbs * Nat.pow 2 (-exponent).toNat * Nat.pow 10 count
      let bottom := Nat.pow 2 exponent.toNat
      if numerator.natAbs * Nat.pow 2 (-exponent).toNat < Nat.pow 10 21 * bottom then
        let digits := Nat.toDigits 10 ((2 * top + bottom) / (2 * bottom))
        let digits := List.replicate (count + 1 - digits.length) '0' ++ digits
        let whole := digits.take (digits.length - count)
        let fraction := digits.drop (digits.length - count)
        let text := if count = 0 then whole else whole ++ '.' :: fraction
        String.ofList (if numerator < 0 then '-' :: text else text)
      else
        number.text
  | .finite .zero | .negativeZero =>
      String.ofList (if count = 0 then ['0'] else '0' :: '.' :: List.replicate count '0')
  | _ => number.text

def fixedReceiver (invoke : Invoker) (receiver count : Value) : Run Value := do
  match ← simpleReceiver .number "toFixed" receiver with
  | .number number => do
      let count ← numberOf invoke count
      let digits := wholePart count
      let isBounded := match count with
        | .infinity _ => false
        | _ => 0 ≤ digits && digits ≤ 100
      if isBounded then
        pure (.string (fixedText number digits.toNat))
      else
        throw (.range .fractionDigits)
  | _ => pure .undefined

end ObjectPath.Run
