import ObjectPath.Number.Printer

/-!
Values.  Objects are places in a graph, so two values are the same object exactly when
they are the same place.  Functions, classes and the types of arrays are objects too.
-/

namespace ObjectPath

/-! ## Values -/

/-- A value of an object graph.  Each symbol has a serial number of its own. -/
inductive Value
  | undefined
  | null
  | boolean (value : Bool)
  | number (value : Number)
  | bigint (value : Int)
  | string (value : String)
  | symbol (serial : Nat) (description : Option String)
  | object (place : Nat)
  deriving DecidableEq

instance : Inhabited Value :=
  ⟨.undefined⟩

namespace Value

def ofNat (count : Nat) : Value :=
  .number (.ofNat count)

/-- Whether a value is missing: there is nothing to step into. -/
def isMissing : Value → Bool
  | .undefined => true
  | .null => true
  | _ => false

/-- The value, or `null` for a missing one. -/
def orNull (value : Value) : Value :=
  if value.isMissing then .null else value

def place? : Value → Option Nat
  | .object place => some place
  | _ => none

def isObject (value : Value) : Bool :=
  value.place?.isSome

def isTruthy : Value → Bool
  | .undefined => false
  | .null => false
  | .boolean value => value
  | .number value => !(value == .nan || value.equal (.ofNat 0))
  | .bigint value => value != 0
  | .string value => value != ""
  | .symbol _ _ => true
  | .object _ => true

/-- Identity: numbers by place on the line, anything else by being the same. -/
def same : Value → Value → Bool
  | .number left, .number right => left.equal right
  | left, right => left == right

/-- Identity under which `nan` is itself. -/
def sameOrNan : Value → Value → Bool
  | .number .nan, .number .nan => true
  | left, right => left.same right

def simpleText? : Value → Option String
  | .undefined => some "undefined"
  | .null => some "null"
  | .boolean true => some "true"
  | .boolean false => some "false"
  | .number value => some value.text
  | .bigint value => some (Int.repr value)
  | .string value => some value
  | .symbol _ description => some ("Symbol(" ++ description.getD "" ++ ")")
  | .object _ => none

end Value

/-! ## Kinds -/

/-- The kinds that values and schemas tell apart. -/
inductive Kind
  | undefined
  | null
  | boolean
  | number
  | bigint
  | string
  | symbol
  | object
  | function
  | array
  deriving DecidableEq, Repr

def Kind.name : Kind → String
  | .undefined => "undefined"
  | .null => "null"
  | .boolean => "boolean"
  | .number => "number"
  | .bigint => "bigint"
  | .string => "string"
  | .symbol => "symbol"
  | .object => "object"
  | .function => "function"
  | .array => "array"

end ObjectPath
