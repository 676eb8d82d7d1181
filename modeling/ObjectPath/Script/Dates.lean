import ObjectPath.Calendar
import ObjectPath.Script.Objects

/-!
The members of dates: their times and their texts.
-/

namespace ObjectPath.Run

def timeOfReceiver (receiver : Value) : Run (Option Int) := do
  match (← get).date? receiver with
  | some time => pure time
  | none => throw (.use .notDate)

/-- The time of a receiver, which must be a date, in the words of a function. -/
def timeToldBy (function : String) (receiver : Value) : Run (Option Int) := do
  let graph ← get
  match graph.date? receiver with
  | some time => pure time
  | none =>
      throw (.use (.foreignReceiver ("Date.prototype." ++ function) (describeAny graph receiver)))

def timeNumber (receiver : Value) : Run Value := do
  match ← timeOfReceiver receiver with
  | some time => pure (.number (.ofInt time))
  | none => pure (.number .nan)

/-- A text of a date; invalid dates have one text. -/
def dateText (function : String) (write : Int → String) (receiver : Value) : Run Value := do
  match ← timeToldBy function receiver with
  | some time => pure (.string (write time))
  | none => pure (.string "Invalid Date")

def isoText (receiver : Value) : Run Value := do
  match ← timeToldBy "toISOString" receiver with
  | some time => pure (.string (Calendar.text time))
  | none => throw (.range .time)

/-- What a date is in data: its calendar text, or nothing for an invalid one. -/
def dateInData (invoke : Invoker) (receiver : Value) : Run Value := do
  let date ← objectOf receiver
  match ← simplify invoke .number date with
  | .number .nan => pure .null
  | .number (.infinity _) => pure .null
  | _ => callMember invoke date "toISOString" "toISOString" []

end ObjectPath.Run
