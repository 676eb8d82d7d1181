import ObjectPath.Script.Assignment

/-!
What every object can be asked: its text and its simple value, its own members, its
parent, and the accessors that it finds.
-/

namespace ObjectPath.Run

/-! ## Receivers and keys -/

/-- A receiver that must not be missing, in the words of a function. -/
def present (words : String) (receiver : Value) : Run Unit := do
  if receiver.isMissing then throw (.use (.missingReceiver words))

/-- The key that a value names.  No slot is known by a symbol, which is given as it is. -/
def keyOf (invoke : Invoker) (value : Value) : Run (Except Value Key) := do
  match ← simplify invoke .text value with
  | .symbol serial description => pure (.error (.symbol serial description))
  | simple => pure (.ok (.ofText (simple.simpleText?.getD "")))

def ownPasses (invoke : Invoker) (receiver named : Value) (test : Property → Bool) :
    Run Value := do
  let key ← keyOf invoke named
  if receiver.isMissing then
    throw (.use .recordOfMissing)
  else
    match key.toOption.bind ((← get).own? receiver ·) with
    | some property => pure (.boolean (test property))
    | none => pure (.boolean false)

/-! ## Names of types -/

/-- The name of a type: that of an array type as its accessor gives it, that of a class
unless it counts as false. -/
def typeNameWith (invoke : Invoker) (type : Value) : Run Value := do
  if (← get).isArrayType type then
    readWith invoke type (.name "name")
  else
    let name ← stepWith invoke type "name"
    pure (if name.isTruthy then name else .string "<anonymous>")

/-- The name of a type inside a message. -/
def typeTextWith (invoke : Invoker) (type : Value) : Run String := do
  messageText invoke (← typeNameWith invoke type)

/-! ## Texts and simple values of objects -/

/-- The text that any value has as a member of the open type. -/
def tagText (graph : Graph) (value : Value) : String :=
  let tag := match value with
    | .undefined => "Undefined"
    | .null => "Null"
    | .object _ => wordOf graph value
    | simple => bodyWord (.boxed simple)
  "[object " ++ tag ++ "]"

def boxedKind : BuiltinClass → Kind
  | .string => .string
  | .number => .number
  | .boolean => .boolean
  | .bigint => .bigint
  | _ => .symbol

/-- The simple value that a receiver is or boxes, which must be of the kind of a class. -/
def simpleReceiver (owner : BuiltinClass) (function : String) (receiver : Value) : Run Value := do
  let graph ← get
  let content := graph.unboxed receiver
  if graph.kind content = boxedKind owner then
    pure content
  else
    throw (.use (.wrongReceiver (owner.name ++ ".prototype." ++ function) owner.name))

/-- Calls a member of a value on it; a message names one that is no function by its value. -/
def callNamed (invoke : Invoker) (value : Value) (name : String) : Run Value := do
  let callee ← readWith invoke value (.name name)
  let graph ← get
  if graph.isCallable callee then
    invoke (.call callee value [])
  else
    throw (.use (.notFunction (calledText graph callee)))

/-! ## Parents -/

def parentValue (receiver : Value) : Run Value := do
  if receiver.isMissing then
    throw (.use .recordOfMissing)
  else
    match (← get).parentOf receiver with
    | some place => pure (.object place)
    | none => pure .null

/-- Gives a receiver a new parent; anything but an object or `null` is passed over. -/
def changeParent (receiver parent : Value) : Run Value := do
  present "Object.prototype.__proto__" receiver
  let graph ← get
  if receiver.isObject && (parent.isObject || parent == .null) then
    if graph.parentOf receiver = parent.place? then
      pure .undefined
    else if !graph.isExtensible receiver then
      throw (.use (.fixedParent (describe graph receiver)))
    else if parent = receiver || graph.descendsFrom parent (receiver.place?.getD 0) then
      throw (.use .circularParent)
    else
      set (graph.setParent receiver parent.place?)
      pure .undefined
  else
    pure .undefined

def isAncestor (receiver value : Value) : Run Value := do
  if !value.isObject then
    pure (.boolean false)
  else if receiver.isMissing then
    throw (.use .recordOfMissing)
  else
    pure (.boolean ((receiver.place?.map ((← get).descendsFrom value ·)).getD false))

/-! ## Accessors -/

def halvesOf (graph : Graph) (target : Value) (key : Key) : Option Nat × Option Nat :=
  match graph.own? target key with
  | some (.accessor getter setter _ _) => (getter, setter)
  | _ => (none, none)

/-- Defines one half of an accessor on a receiver; the other half stays. -/
def defineAccessor (invoke : Invoker) (isGetter : Bool) (receiver named function : Value) :
    Run Value := do
  let words := "Object.prototype." ++ (if isGetter then "__defineGetter__" else "__defineSetter__")
  let target ← objectOf receiver
  match (← get).isCallable function, function.place? with
  | true, some place => do
      match ← keyOf invoke named with
      | .error symbol => do
          if (← get).isExtensible target then
            pure .undefined
          else
            throw (.use (.notDefinable (symbol.simpleText?.getD "")))
      | .ok key =>
          let (getter, setter) := halvesOf (← get) target key
          defineMember target key
            (if isGetter then .accessor (some place) setter true true
              else .accessor getter (some place) true true)
          pure .undefined
  | _, _ => throw (.use (.notAccessor words))

def lookUpAccessor (invoke : Invoker) (isGetter : Bool) (receiver named : Value) : Run Value := do
  let target ← objectOf receiver
  let key ← keyOf invoke named
  match key.toOption.bind ((← get).find? target ·) with
  | some (.accessor getter setter _ _) =>
      match if isGetter then getter else setter with
      | some place => pure (.object place)
      | none => pure .undefined
  | _ => pure .undefined

end ObjectPath.Run
