import ObjectPath.Fault
import ObjectPath.Graph.Store

/-!
Runs: computations over a graph that may end in a fault.  The graph as it stands
is kept on every outcome, so what happened before a fault stays visible.
-/

namespace ObjectPath

abbrev Run :=
  EStateM Fault Graph

/-- Work that scripts can ask for: calling a function or making an instance. -/
inductive Activation
  | call (callee receiver : Value) (arguments : List Value)
  /-- Runs the constructor `callee` to make an instance of the class `owner`, which is
  `callee` itself or descends from it. -/
  | create (callee : Value) (arguments : List Value) (owner : Value)

/-- How activations are carried out. -/
abbrev Invoker :=
  Activation → Run Value

namespace Run

def lift {α : Type} : Except Fault α → Run α
  | .ok value => pure value
  | .error fault => throw fault

/-! ## New objects -/

def allocate (object : Object) : Run Value := do
  let (value, graph) := (← get).allocate object
  set graph
  pure value

def newOf (owner : BuiltinClass) (body : Body) (slots : List (Key × Property)) : Run Value :=
  allocate ⟨some owner.sharedPlace, body, slots, true⟩

def dataSlots (slots : List (Key × Value)) : List (Key × Property) :=
  slots.map fun slot => (slot.1, .data slot.2 .plain)

/-- A new record that has the members of every object. -/
def newRecord (slots : List (Key × Value)) : Run Value :=
  newOf .object .plain (dataSlots slots)

/-- The slots of elements in order; holes have none. -/
def elementSlots (elements : List (Option Value)) : List (Key × Property) :=
  elements.zipIdx.filterMap fun (element, position) =>
    element.map fun value => (Key.ofIndex position, .data value .plain)

def newArray (elements : List (Option Value)) : Run Value :=
  newOf .array (.items elements.length true) (elementSlots elements)

/-- A symbol that no other value is. -/
def newSymbol (description : Option String) : Run Value := do
  let graph ← get
  set { graph with symbols := graph.symbols + 1 }
  pure (.symbol graph.symbols description)

/-- A value as an object: a simple value is boxed, a missing one gives a record. -/
def toObject (value : Value) : Run Value :=
  match value with
  | .undefined => newRecord []
  | .null => newRecord []
  | .boolean _ => newOf .boolean (.boxed value) []
  | .number _ => newOf .number (.boxed value) []
  | .bigint _ => newOf .bigint (.boxed value) []
  | .string _ => newOf .string (.boxed value) []
  | .symbol _ _ => newOf .symbol (.boxed value) []
  | .object _ => pure value

/-- A value that must not be missing as an object. -/
def objectOf (value : Value) : Run Value :=
  if value.isMissing then throw (.use .recordOfMissing) else toObject value

def functionSlots (name : String) : List (Key × Property) :=
  [(.name "length", .data (.ofNat 0) .labelling), (.name "name", .data (.string name) .labelling)]

/-- A new function, which makes no instances. -/
def newFunction (name : String) (body : List Statement) : Run Value :=
  newOf .function (.function (.script body false)) (functionSlots name)

/-! ## Types -/

/-- The type of the arrays over a type.  The same component gives the same type. -/
def arrayOf (component : Value) : Run Value := do
  match Entries.get? (← get).arrayTypes component with
  | some place => pure (.object place)
  | none =>
      let place := (← get).objects.size
      let type ← newOf .arrayType .plain (dataSlots [(.name "componentType", component)])
      modify fun graph => { graph with arrayTypes := Entries.put graph.arrayTypes component place }
      pure type

/-- A type wrapped in a number of array dimensions. -/
def nest (type : Value) : Nat → Run Value
  | 0 => pure type
  | dimensions + 1 => do arrayOf (← nest type dimensions)

def typeNamed? (name : TypeName) : Run (Option Value) := do
  match Entries.get? (← get).classNames name.className with
  | some owner => pure (some (← nest owner name.dimensions))
  | none => pure none

/-! ## Variables -/

/-- Makes a variable of templates stand for a value. -/
def setVariable (name : String) (value : Value) : Run Unit :=
  modify fun graph => { graph with valueNames := Entries.put graph.valueNames name value }

/-! ## Defining members -/

/-- Enters an own member of an object.  Objects to which nothing can be added refuse,
and so do members that cannot be defined anew. -/
def defineMember (target : Value) (key : Key) (property : Property) : Run Unit := do
  let graph ← get
  if target.isObject then
    match graph.definable target key with
    | .definable => set (graph.enter target key property)
    | .settled => throw (.use (.redefined key.text))
    | .notExtensible => throw (.use (.notDefinable key.text))
  else
    throw (.use .defineOnSimple)

/-! ## Reading members -/

/-- What a found member gives to a receiver: the value of a slot, or what a getter gives. -/
def receive (invoke : Invoker) (receiver : Value) : Option Property → Run Value
  | none => pure .undefined
  | some (.data content _) => pure content
  | some (.accessor none _ _ _) => pure .undefined
  | some (.accessor (some getter) _ _ _) => invoke (.call (.object getter) receiver [])

/-- Reads a member of a value; a getter is run on the value. -/
def readWith (invoke : Invoker) (value : Value) (key : Key) : Run Value := do
  receive invoke value ((← get).find? value key)

def stepWith (invoke : Invoker) (value : Value) (name : String) : Run Value := do
  match value with
  | .undefined => throw (.use (.readOfMissing name "undefined"))
  | .null => throw (.use (.readOfMissing name "null"))
  | _ => readWith invoke value (.ofText name)

/-- Reads a member of a value and calls it on the value.  The words for the member are
those of the message when it is no function. -/
def callMember (invoke : Invoker) (value : Value) (name words : String)
    (arguments : List Value) : Run Value := do
  let callee ← stepWith invoke value name
  if (← get).isCallable callee then
    invoke (.call callee value arguments)
  else
    throw (.use (.notFunction words))

end Run

end ObjectPath
