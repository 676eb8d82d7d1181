import ObjectPath.Typing

/-!
Comparison of values: equality and order as predicates use them.  Values are equal
when they are the same, when the first says so through its own `equals`, or when
they are dates of one time.  Only numbers, texts and dates have an order, each
among themselves; dates are asked for their times.
-/

namespace ObjectPath

/-! ## Order of simple values -/

/-- Where a number or a big integer lies on the number line. -/
def Value.point? : Value → Option Point
  | .number content => content.point?
  | .bigint content => some (.ofInt content)
  | _ => none

def Point.order (left right : Point) : Ordering :=
  if left.before right then .lt else if right.before left then .gt else .eq

/-- How the first of two texts lies to the second, by their units. -/
def Text.order (left right : String) : Ordering :=
  if unitsBefore left right then .lt else if unitsBefore right left then .gt else .eq

/-- How the first of two simple values lies to the second, if they have an order.  Big
integers and numbers compare by exact value and texts by their units. -/
def Value.order? (left right : Value) : Option Ordering :=
  match left, right with
  | .string first, .string second => some (Text.order first second)
  | _, _ =>
      match left.point?, right.point? with
      | some first, some second => some (first.order second)
      | _, _ => none

/-! ## Dates -/

def timeTold (words : String) (date : Value) : Run Value :=
  Run.callMember perform date "getTime" (words ++ ".getTime") []

/-- A told time as a place on the number line: big integers stay what they are. -/
def timePoint (time : Value) : Run Value := do
  match ← Run.simplify perform .number time with
  | .bigint content => pure (.bigint content)
  | simple => do pure (.number (← Run.numberOf perform simple))

/-- How the time of the first of two dates lies to that of the second.  Times are told
first and then converted; a big integer cannot be compared with a number. -/
def orderDates (left right : Value) : Run (Option Ordering) := do
  let first ← timeTold "x" left
  let second ← timeTold "y" right
  match ← timePoint first, ← timePoint second with
  | .bigint first, .bigint second => pure ((Value.bigint first).order? (.bigint second))
  | .number first, .number second => pure ((Value.number first).order? (.number second))
  | _, _ => throw (.use .mixedArithmetic)

def order? (left right : Value) : Run (Option Ordering) := do
  let graph ← get
  if graph.isDate left && graph.isDate right then
    orderDates left right
  else
    pure (left.order? right)

def isLess (left right : Value) : Run Bool := do
  pure ((← order? left right) == some .lt)

def isGreater (left right : Value) : Run Bool := do
  pure ((← order? left right) == some .gt)

/-! ## Equality -/

/-- Whether two values are dates that tell the same time. -/
def areSameDates (left right : Value) : Run Bool := do
  let graph ← get
  if graph.isDate left && graph.isDate right then
    let first ← timeTold "x" left
    pure (first.same (← timeTold "y" right))
  else
    pure false

/-- Whether two values are equal. -/
def isEqual (left right : Value) : Run Bool := do
  if left.sameOrNan right then
    pure true
  else
    let graph ← get
    if graph.kind left = .object && left ≠ .null && graph.has left (.name "equals") then
      let equals ← Run.read left "equals"
      if (← get).isCallable equals then
        let answer ← Run.call equals left [right]
        pure (answer == .boolean true)
      else
        areSameDates left right
    else
      areSameDates left right

/-- Whether a value equals an element of an array, which is asked through its own `some`
if it has one. -/
def isElement (value array : Value) : Run Bool := do
  if (← get).isArray array then
    let search ← Run.read array "some"
    if search = .object BuiltinFunction.someElement.place then
      let length ← Run.statedLength perform array
      Run.anyElement perform array (fun _ element => isEqual value element) (List.range length)
    else if (← get).isCallable search then
      pure (← Run.call search array [← Run.newFunction "" []]).isTruthy
    else
      throw (.use (.notFunction "y.some"))
  else
    pure false

/-! ## Tests -/

/-- How many values a test needs; an undefined test stands for no test at all. -/
inductive TestKind
  | undefined
  | unary
  | binary
  deriving DecidableEq

def TestKind.name : TestKind → String
  | .undefined => "undefined"
  | .unary => "unary"
  | .binary => "binary"

/-- A test that a predicate applies.  Two tests are the same when their serial numbers are. -/
structure Test where
  serial : Nat
  name : String
  kind : TestKind
  holds : Value → Value → Run Bool

namespace Test

def undefined : Test :=
  ⟨0, "UNDEFINED", .undefined, fun _ _ => pure false⟩

def isNull : Test :=
  ⟨1, "NULL", .unary, fun value _ => pure value.isMissing⟩

def isNotNull : Test :=
  ⟨2, "NOT_NULL", .unary, fun value _ => pure !value.isMissing⟩

def equal : Test :=
  ⟨3, "EQUAL", .binary, ObjectPath.isEqual⟩

def notEqual : Test :=
  ⟨4, "NOT_EQUAL", .binary, fun left right => do pure !(← ObjectPath.isEqual left right)⟩

def same : Test :=
  ⟨5, "SAME", .binary, fun left right => pure (left.same right)⟩

def greaterThan : Test :=
  ⟨6, "GREATER_THAN", .binary, ObjectPath.isGreater⟩

def lessThan : Test :=
  ⟨7, "LESS_THAN", .binary, ObjectPath.isLess⟩

/-- The first value is an element of the second. -/
def isIn : Test :=
  ⟨8, "IN", .binary, isElement⟩

/-- The serial numbers below this one belong to the tests above. -/
def firstFree : Nat :=
  9

def ofName? (name : String) : Option Test :=
  [undefined, isNull, isNotNull, equal, notEqual, same, greaterThan, lessThan, isIn].find?
    (·.name == name)

def unary (serial : Nat) (name : String) (holds : Value → Bool) : Test :=
  ⟨serial, name, .unary, fun value _ => pure (holds value)⟩

def binary (serial : Nat) (name : String) (holds : Value → Value → Bool) : Test :=
  ⟨serial, name, .binary, fun left right => pure (holds left right)⟩

def isEmptyText (serial : Nat) : Test :=
  unary serial "EMPTY" fun value => value == .string ""

def startsWith (serial : Nat) : Test :=
  binary serial "STARTS_WITH" fun
    | .string text, .string start => Text.startsWith text start
    | _, _ => false

end Test

end ObjectPath
