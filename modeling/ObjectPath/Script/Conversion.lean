import ObjectPath.Number.Reader
import ObjectPath.Run

/-!
Conversions of values to texts and numbers.  Simple values convert by themselves; an
object is asked for a simple value through its own `toString` and `valueOf`.
-/

namespace ObjectPath

/-! ## Simple values -/

namespace Value

/-- The number of a simple value that has one; symbols and big integers refuse. -/
def simpleNumber : Value → Except UseFault Number
  | .undefined => .ok .nan
  | .null => .ok (.ofNat 0)
  | .boolean true => .ok (.ofNat 1)
  | .boolean false => .ok (.ofNat 0)
  | .number value => .ok value
  | .bigint _ => .error .bigintAsNumber
  | .string value => .ok (.ofText value)
  | .symbol _ _ => .error .symbolAsNumber
  | .object _ => .ok .nan

end Value

namespace Run

/-! ## Objects -/

/-- What kind of simple value a conversion would rather have. -/
inductive Wish
  | text
  | number
  | either
  deriving DecidableEq

/-- The members that an object is asked through, in order.  A date that may give either
gives its text. -/
def converters (graph : Graph) (value : Value) : Wish → List String
  | .text => ["toString", "valueOf"]
  | .number => ["valueOf", "toString"]
  | .either => if graph.isDate value then ["toString", "valueOf"] else ["valueOf", "toString"]

/-- Asks an object through members in order: the first one that is a function and gives
a simple value decides. -/
def askThrough (invoke : Invoker) (value : Value) : List String → Run Value
  | [] => throw (.use .notPrimitive)
  | name :: rest => do
      let converter ← readWith invoke value (.name name)
      if (← get).isCallable converter then
        let result ← invoke (.call converter value [])
        if result.isObject then askThrough invoke value rest else pure result
      else
        askThrough invoke value rest

/-- The simple value that a value stands for.  A boxed symbol stands for its symbol. -/
def simplify (invoke : Invoker) (wish : Wish) (value : Value) : Run Value := do
  if value.isObject then
    let graph ← get
    if graph.descendsFrom value BuiltinClass.symbol.sharedPlace then
      match graph.unboxed value with
      | .symbol serial description => pure (.symbol serial description)
      | _ =>
          throw (.use (.wrongReceiver "Symbol.prototype [ @@toPrimitive ]" "Symbol"))
    else
      askThrough invoke value (converters graph value wish)
  else
    pure value

/-- The text of a value inside a message, which a symbol refuses. -/
def messageText (invoke : Invoker) (value : Value) : Run String := do
  match ← simplify invoke .text value with
  | .symbol _ _ => throw (.use .symbolAsText)
  | simple => pure (simple.simpleText?.getD "")

/-- The text of a value.  A symbol is described, but an object that stands for a symbol
has no text. -/
def textOf (invoke : Invoker) (value : Value) : Run String :=
  match value with
  | .symbol _ _ => pure (value.simpleText?.getD "")
  | _ => messageText invoke value

def numberOf (invoke : Invoker) (value : Value) : Run Number := do
  let simple ← simplify invoke .number value
  match simple.simpleNumber with
  | .ok number => pure number
  | .error reason => throw (.use reason)

/-- The number of a value for arithmetic with numbers, which big integers refuse. -/
def operandOf (invoke : Invoker) (value : Value) : Run Number := do
  match ← simplify invoke .number value with
  | .bigint _ => throw (.use .mixedArithmetic)
  | simple =>
      match simple.simpleNumber with
      | .ok number => pure number
      | .error reason => throw (.use reason)

/-- Whether a value is less than a count.  What is no number is not. -/
def isBelow (invoke : Invoker) (value : Value) (count : Nat) : Run Bool := do
  let point? ← match ← simplify invoke .number value with
    | .bigint content => pure (some (Point.ofInt content))
    | simple =>
        match simple.simpleNumber with
        | .ok number => pure number.point?
        | .error reason => throw (.use reason)
  pure ((point?.map (·.before (.ofInt count))).getD false)

/-- The whole part of a number of arguments or places: 0 for what is no number. -/
def wholePart : Number → Int
  | .finite value => value.toRat.num.tdiv value.toRat.den
  | _ => 0

end Run

end ObjectPath
