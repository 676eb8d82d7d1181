import ObjectPath.Number.Basic
import ObjectPath.Text.Blank
import ObjectPath.Text.Identifier

/-!
Numbers read from text.  Blanks around the number are dropped, an empty text is
zero, and a text that is no number reads as `nan`.
-/

namespace ObjectPath.Number

open Text

/-! ## Decimal literals -/

/-- The digits at the start of a text, and what follows them. -/
def takeDigits (text : List Char) : List Char × List Char :=
  (text.takeWhile Char.isDigit, text.dropWhile Char.isDigit)

/-- An exponent part, which may be missing and must reach the end of the text. -/
def readExponent? : List Char → Option Int
  | [] => some 0
  | mark :: rest =>
      if mark = 'e' || mark = 'E' then
        match rest with
        | '-' :: digits => if isDigitList digits then some (-(digitsValue digits : Int)) else none
        | '+' :: digits => if isDigitList digits then some (digitsValue digits) else none
        | digits => if isDigitList digits then some (digitsValue digits) else none
      else
        none

/-- An unsigned decimal literal: digits, an optional fraction, an optional exponent. -/
def readUnsigned? (negative : Bool) (text : List Char) : Option Number :=
  let (whole, rest) := takeDigits text
  let (fraction, tail) :=
    match rest with
    | '.' :: afterPoint => takeDigits afterPoint
    | _ => ([], rest)
  if whole.isEmpty && fraction.isEmpty then
    none
  else
    (readExponent? tail).map fun (exponent : Int) =>
      let power : Int := exponent - fraction.length
      let mantissa := digitsValue (whole ++ fraction)
      let place : Int := power + (Nat.toDigits 10 mantissa).length
      if mantissa = 0 || place < -400 then
        ofRatio negative 0 1
      else if 400 < place then
        .infinity negative
      else
        ofDecimal negative mantissa power

def baseValue? (base : Nat) (digits : List Char) : Option Nat :=
  let values := digits.map fun digit =>
    let lower := digit.toLower
    if lower.isDigit then lower.toNat - '0'.toNat
    else if lower.isAlpha then lower.toNat - 'a'.toNat + 10
    else base
  if digits.isEmpty || values.any (base ≤ ·) then
    none
  else
    some (values.foldl (fun total value => total * base + value) 0)

/-- The base that the start of a literal names, and the digits after it. -/
def splitBase? : List Char → Option (Nat × List Char)
  | '0' :: 'x' :: digits => some (16, digits)
  | '0' :: 'X' :: digits => some (16, digits)
  | '0' :: 'o' :: digits => some (8, digits)
  | '0' :: 'O' :: digits => some (8, digits)
  | '0' :: 'b' :: digits => some (2, digits)
  | '0' :: 'B' :: digits => some (2, digits)
  | _ => none

/-- A decimal literal or `Infinity`, with or without a sign. -/
def readSigned? : List Char → Option Number
  | [] => some (.finite 0)
  | '-' :: rest =>
      if rest = "Infinity".toList then some (.infinity true) else readUnsigned? true rest
  | '+' :: rest =>
      if rest = "Infinity".toList then some (.infinity false) else readUnsigned? false rest
  | text =>
      if text = "Infinity".toList then some (.infinity false) else readUnsigned? false text

/-- A literal without blanks around it. -/
def readLiteral? (text : List Char) : Option Number :=
  match splitBase? text with
  | some (base, digits) => (baseValue? base digits).map (ofRatio false · 1)
  | none => readSigned? text

def ofText (text : String) : Number :=
  (readLiteral? (trimList text.toList)).getD .nan

/-! ## Integers -/

def readSignedInteger? : List Char → Option Int
  | [] => some 0
  | '-' :: digits => if isDigitList digits then some (-(digitsValue digits : Int)) else none
  | '+' :: digits => if isDigitList digits then some (digitsValue digits) else none
  | digits => if isDigitList digits then some (digitsValue digits) else none

/-- The integer that a text writes: in decimal digits, or in those of another base
without a sign. -/
def integerOfText? (text : String) : Option Int :=
  let literal := trimList text.toList
  match splitBase? literal with
  | some (base, digits) => (baseValue? base digits).map Int.ofNat
  | none => readSignedInteger? literal

end ObjectPath.Number
