import ObjectPath.Calendar
import ObjectPath.Text.Identifier

/-!
Times read from calendar text: a date, or a date and a time of day with or without a
distance from the meridian of Greenwich.  Times can also be put together from numbers.
-/

namespace ObjectPath.Calendar

/-! ## Days -/

/-- The day of a date, counted from the start of 1970.  Years are counted from March. -/
def dayOfDate (year : Int) (month day : Nat) : Int :=
  let shifted := if month ≤ 2 then year - 1 else year
  let era := shifted.fdiv 400
  let yearOfEra := shifted - era * 400
  let monthFromMarch : Int := if month ≤ 2 then month + 9 else month - 3
  let dayOfYear := (153 * monthFromMarch + 2) / 5 + day - 1
  era * 146097 + yearOfEra * 365 + yearOfEra / 4 - yearOfEra / 100 + dayOfYear - 719468

/-! ## Parts -/

/-- The number that `count` digits at the start of a text write, and the rest. -/
def takeNumber? (count : Nat) (text : List Char) : Option (Nat × List Char) :=
  let digits := text.take count
  if digits.length = count && Text.isDigitList digits then
    some (Text.digitsValue digits, text.drop count)
  else
    none

/-- The number after a mark, or the value to take when the text does not start with it. -/
def takeMarked? (mark : Char) (otherwise : Nat) : List Char → Option (Nat × List Char)
  | character :: rest =>
      if character = mark then takeNumber? 2 rest else some (otherwise, character :: rest)
  | [] => some (otherwise, [])

/-- The year: four digits, or a sign and six digits. -/
def takeYear? : List Char → Option (Int × List Char)
  | '+' :: rest => (takeNumber? 6 rest).map fun (year, rest) => ((year : Int), rest)
  | '-' :: rest =>
      match takeNumber? 6 rest with
      | some (0, _) => none
      | some (year, rest) => some (-(year : Int), rest)
      | none => none
  | text => (takeNumber? 4 text).map fun (year, rest) => ((year : Int), rest)

/-- The milliseconds after a point, of which three digits count. -/
def takeFraction? : List Char → Option (Nat × List Char)
  | '.' :: rest =>
      let digits := rest.takeWhile Char.isDigit
      if digits.isEmpty then
        none
      else
        some (Text.digitsValue ((digits ++ ['0', '0']).take 3), rest.dropWhile Char.isDigit)
  | text => some (0, text)

/-- The distance from the meridian of Greenwich in minutes, at the end of a text. -/
def readOffset? : List Char → Option Int
  | [] => some 0
  | ['Z'] => some 0
  | sign :: rest => do
      let (hours, rest) ← takeNumber? 2 rest
      let (minutes, rest) ← takeMarked? ':' 60 rest
      if rest = [] && hours < 24 && minutes < 60 then
        let distance : Int := hours * 60 + minutes
        if sign = '+' then some distance else if sign = '-' then some (-distance) else none
      else
        none

/-- The milliseconds of a time of day, less the distance from Greenwich, to the end of a
text. -/
def readTimeOfDay? : List Char → Option Int
  | [] => some 0
  | mark :: rest => do
      let (hours, rest) ← takeNumber? 2 rest
      let (minutes, rest) ← takeMarked? ':' 60 rest
      let (seconds, rest) ← takeMarked? ':' 0 rest
      let (fraction, rest) ← takeFraction? rest
      let offset ← readOffset? rest
      let isMidnight := minutes == 0 && seconds == 0 && fraction == 0
      if mark = 'T' && minutes < 60 && seconds < 60 &&
          (hours < 24 || hours == 24 && isMidnight) then
        some (hours * 3600000 + (minutes - offset) * 60000 + seconds * 1000 + fraction)
      else
        none

/-! ## Times -/

/-- The time that numbers name: year, month counted from 0, and then day, hours, minutes,
seconds and milliseconds as far as they are given.  What lies outside its range carries
over, and years up to 99 are those of the twentieth century. -/
def ofNumbers? (year month : Int) (others : List Int) : Option Int :=
  let fullYear := if 0 ≤ year && year ≤ 99 then 1900 + year else year
  let start := dayOfDate (fullYear + month.fdiv 12) ((month.fmod 12).toNat + 1) 1
  let day := start + others.getD 0 1 - 1
  let minutes := (day * 24 + others.getD 1 0) * 60 + others.getD 2 0
  clip ((minutes * 60 + others.getD 3 0) * 1000 + others.getD 4 0)

def ofText? (text : String) : Option Int := do
  let (year, rest) ← takeYear? text.toList
  let (month, rest) ← takeMarked? '-' 1 rest
  let (day, rest) ← takeMarked? '-' 1 rest
  let timeOfDay ← readTimeOfDay? rest
  if 1 ≤ month && month ≤ 12 && 1 ≤ day && day ≤ 31 then
    clip (dayOfDate year month day * 86400000 + timeOfDay)
  else
    none

end ObjectPath.Calendar
