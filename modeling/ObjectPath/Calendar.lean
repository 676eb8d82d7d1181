/-!
Times and their calendar text.  A time is a number of milliseconds since the
start of 1970; its text is the date and time of day in the proleptic Gregorian
calendar.
-/

namespace ObjectPath.Calendar

/-! ## Times -/

/-- The greatest distance from the start of 1970, in milliseconds. -/
def greatestTime : Int :=
  8640000000000000

/-- Times farther away than `greatestTime` are no times. -/
def clip (milliseconds : Int) : Option Int :=
  if milliseconds.natAbs ≤ greatestTime.natAbs then some milliseconds else none

/-! ## Dates -/

structure Date where
  year : Int
  month : Nat
  day : Nat

/-- The date of a day counted from the start of 1970.  Years are counted from
March here, so that the day added in leap years is the last of its year. -/
def dateOfDay (dayNumber : Int) : Date :=
  let shifted := dayNumber + 719468
  let era := shifted.fdiv 146097
  let dayOfEra := (shifted - era * 146097).toNat
  let yearOfEra := (dayOfEra - dayOfEra / 1460 + dayOfEra / 36524 - dayOfEra / 146096) / 365
  let dayOfYear := dayOfEra - (365 * yearOfEra + yearOfEra / 4 - yearOfEra / 100)
  let monthFromMarch := (5 * dayOfYear + 2) / 153
  let day := dayOfYear - (153 * monthFromMarch + 2) / 5 + 1
  let month := if monthFromMarch < 10 then monthFromMarch + 3 else monthFromMarch - 9
  let year : Int := yearOfEra + era * 400
  ⟨if month ≤ 2 then year + 1 else year, month, day⟩

/-! ## Text -/

def padded (width value : Nat) : String :=
  let digits := Nat.toDigits 10 value
  String.ofList (List.replicate (width - digits.length) '0' ++ digits)

/-- Years outside 0 to 9999 have a sign and six digits. -/
def yearText (year : Int) : String :=
  if 0 ≤ year && year ≤ 9999 then
    padded 4 year.toNat
  else if year < 0 then
    "-" ++ padded 6 year.natAbs
  else
    "+" ++ padded 6 year.natAbs

/-- Date and time of day to the millisecond, at the meridian of Greenwich. -/
def text (milliseconds : Int) : String :=
  let day := milliseconds.fdiv 86400000
  let rest := (milliseconds - day * 86400000).toNat
  let date := dateOfDay day
  yearText date.year ++ "-" ++ padded 2 date.month ++ "-" ++ padded 2 date.day ++ "T" ++
    padded 2 (rest / 3600000) ++ ":" ++ padded 2 (rest / 60000 % 60) ++ ":" ++
    padded 2 (rest / 1000 % 60) ++ "." ++ padded 3 (rest % 1000) ++ "Z"

def weekdayNames : List String :=
  ["Thu", "Fri", "Sat", "Sun", "Mon", "Tue", "Wed"]

def monthNames : List String :=
  ["Jan", "Feb", "Mar", "Apr", "May", "Jun", "Jul", "Aug", "Sep", "Oct", "Nov", "Dec"]

/-- The long form: weekday, date, time of day to the second and time zone. -/
def longText (milliseconds : Int) : String :=
  let day := milliseconds.fdiv 86400000
  let rest := (milliseconds - day * 86400000).toNat
  let date := dateOfDay day
  let year := (if date.year < 0 then "-" else "") ++ padded 4 date.year.natAbs
  weekdayNames.getD (day.fmod 7).toNat "" ++ " " ++ monthNames.getD (date.month - 1) "" ++ " " ++
    padded 2 date.day ++ " " ++ year ++ " " ++ padded 2 (rest / 3600000) ++ ":" ++
    padded 2 (rest / 60000 % 60) ++ ":" ++ padded 2 (rest / 1000 % 60) ++
    " GMT+0000 (Coordinated Universal Time)"

/-- The form for readers: month, day, year and the time of day in two halves of a day.
The year before the first one counts as the first before it. -/
def readerText (milliseconds : Int) : String :=
  let day := milliseconds.fdiv 86400000
  let rest := (milliseconds - day * 86400000).toNat
  let date := dateOfDay day
  let year := if date.year ≤ 0 then 1 - date.year else date.year
  let hour := rest / 3600000
  let shownHour := if hour % 12 = 0 then 12 else hour % 12
  Nat.repr date.month ++ "/" ++ Nat.repr date.day ++ "/" ++ Int.repr year ++ ", " ++
    Nat.repr shownHour ++ ":" ++ padded 2 (rest / 60000 % 60) ++ ":" ++
    padded 2 (rest / 1000 % 60) ++ " " ++ (if hour < 12 then "AM" else "PM")

end ObjectPath.Calendar
