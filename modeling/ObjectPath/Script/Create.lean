import ObjectPath.Calendar.Reader
import ObjectPath.Script.Builtin

/-!
Making instances of the built-in classes, and calling those classes as functions, which
converts a value.
-/

namespace ObjectPath.Run

/-! ## Instances -/

/-- The place of the object whose members the instances of a class share, and that of a
built-in class if it has none. -/
def sharedPlaceOf (invoke : Invoker) (owner : Value) (otherwise : BuiltinClass) : Run Nat := do
  match ← readWith invoke owner (.name "prototype") with
  | .object place => pure place
  | _ => pure otherwise.sharedPlace

def newInstanceOf (invoke : Invoker) (owner : Value) (otherwise : BuiltinClass) (body : Body)
    (slots : List (Key × Property)) : Run Value := do
  let place ← sharedPlaceOf invoke owner otherwise
  allocate ⟨some place, body, slots, true⟩

/-! ## Conversions by classes -/

/-- The text that a class of texts makes of its arguments.  A call describes a symbol,
which an instance cannot hold. -/
def convertedText (invoke : Invoker) (describes : Bool) : List Value → Run String
  | [] => pure ""
  | .symbol serial description :: _ =>
      if describes then textOf invoke (.symbol serial description)
      else throw (.use .symbolAsText)
  | value :: _ => messageText invoke value

def convertedNumber (invoke : Invoker) : List Value → Run Number
  | [] => pure (.ofNat 0)
  | value :: _ => do
      match ← simplify invoke .number value with
      | .bigint content => pure (Number.round (Dyadic.ofInt content))
      | simple =>
          match simple.simpleNumber with
          | .ok number => pure number
          | .error reason => throw (.use reason)

def convertedBigint (invoke : Invoker) (value : Value) : Run Int := do
  match ← simplify invoke .number value with
  | .bigint content => pure content
  | .boolean content => pure (if content then 1 else 0)
  | .number number =>
      match number.toInt? with
      | some content => pure content
      | none => throw (.range (.fractionAsBigint number.text))
  | .string text =>
      match Number.integerOfText? text with
      | some content => pure content
      | none => throw (.malformedBigint text)
  | simple => throw (.use (.notBigint (simple.simpleText?.getD "")))

def timeOf (invoke : Invoker) (value : Value) : Run (Option Int) := do
  match (← get).date? value with
  | some time => pure time
  | none =>
      match ← simplify invoke .either value with
      | .string text => pure (Calendar.ofText? text)
      | simple =>
          match ← numberOf invoke simple with
          | .finite number => pure (Calendar.clip (wholePart (.finite number)))
          | .negativeZero => pure (some 0)
          | _ => pure none

/-- The whole numbers of values in order, or nothing if one of them has none. -/
def wholeNumbers? (invoke : Invoker) : List Value → Run (Option (List Int))
  | [] => pure (some [])
  | value :: rest => do
      let number ← numberOf invoke value
      let numbers? ← wholeNumbers? invoke rest
      match number with
      | .nan => pure none
      | .infinity _ => pure none
      | _ => pure (numbers?.map (wholePart number :: ·))

/-- The time that the class of dates makes of its arguments: of one value its time, of
several values the time that their numbers name. -/
def convertedTime (invoke : Invoker) : List Value → Run (Option Int)
  | year :: month :: others => do
      match ← wholeNumbers? invoke (year :: month :: others.take 5) with
      | some (year :: month :: others) => pure (Calendar.ofNumbers? year month others)
      | _ => pure none
  | arguments => timeOf invoke (arguments.getD 0 .undefined)

/-- The length and the elements of a new array: a single number is a length. -/
def arrayParts : List Value → Run (Nat × List (Key × Property))
  | [.number length] =>
      match length.toInt? with
      | some count =>
          if 0 ≤ count && count < 4294967296 then
            pure (count.toNat, [])
          else
            throw (.range .arrayLength)
      | none => throw (.range .arrayLength)
  | values => pure (values.length, elementSlots (values.map some))

/-! ## Built-in classes -/

/-- A new function that does nothing and can make instances. -/
def newBlankFunction (invoke : Invoker) (owner : Value) : Run Value := do
  let function ← newInstanceOf invoke owner .function (.function (.script [] true))
    (functionSlots "anonymous")
  let shared ← newOf .object .plain [(.name "constructor", .data function .hidden)]
  modify (·.enter function (.name "prototype") (.data shared ⟨true, false, false⟩))
  pure function

/-- Makes an instance of a class whose constructor is that of a built-in class. -/
def createBuiltin (invoke : Invoker) (builtin : BuiltinClass) (arguments : List Value)
    (owner : Value) : Run Value := do
  let first := arguments.getD 0 .undefined
  match builtin with
  | .object =>
      if owner = .object builtin.place then toObject first
      else newInstanceOf invoke owner builtin .plain []
  | .function => newBlankFunction invoke owner
  | .array => do
      let (length, slots) ← arrayParts arguments
      newInstanceOf invoke owner builtin (.items length true) slots
  | .string => do
      let text ← convertedText invoke false arguments
      newInstanceOf invoke owner builtin (.boxed (.string text)) []
  | .number => do
      let number ← convertedNumber invoke arguments
      newInstanceOf invoke owner builtin (.boxed (.number number)) []
  | .boolean => newInstanceOf invoke owner builtin (.boxed (.boolean first.isTruthy)) []
  | .date => do
      let time ← convertedTime invoke arguments
      newInstanceOf invoke owner builtin (.date time) []
  | .bigint => throw (.use (.notConstructible builtin.name))
  | .symbol => throw (.use (.notConstructible builtin.name))
  | .arrayType =>
      newInstanceOf invoke owner builtin .plain (dataSlots [(.name "componentType", first)])
  | _ => newInstanceOf invoke owner builtin .plain []

def callClass (invoke : Invoker) (builtin : BuiltinClass) (arguments : List Value) : Run Value := do
  let first := arguments.getD 0 .undefined
  match builtin with
  | .string => do pure (.string (← convertedText invoke true arguments))
  | .number => do pure (.number (← convertedNumber invoke arguments))
  | .boolean => pure (.boolean first.isTruthy)
  | .bigint => do pure (.bigint (← convertedBigint invoke first))
  | .symbol => do
      match first with
      | .undefined => newSymbol none
      | _ => newSymbol (some (← messageText invoke first))
  | .date => pure (.string (Calendar.longText 0))
  | .object | .function | .array =>
      createBuiltin invoke builtin arguments (.object builtin.place)
  | _ => throw (.use (.classCall (some builtin.name)))

end ObjectPath.Run
