import ObjectPath.Factory
import ObjectPath.Node

/-!
Reading, writing and typing a single node.  A node is applied at a position: to a
value, or to a class when it is the first node of a static path.
-/

namespace ObjectPath

/-! ## Positions -/

inductive Position
  | onClass (owner : Value)
  | onValue (target : Value)

namespace Position

/-- The class on which members are looked up. -/
def owner : Position → Run Value
  | .onClass owner => pure owner
  | .onValue target => Run.typeOf target

def scope : Position → Scope
  | .onClass _ => .onClass
  | .onValue _ => .onInstance

/-- The value on which members may be found besides those of its class. -/
def value? : Position → Option Value
  | .onClass _ => none
  | .onValue target => some target

def target : Position → Value
  | .onClass owner => owner
  | .onValue target => target

end Position

namespace Node

/-! ## Members of a node -/

def fieldAt (resolver : Resolver) (name : String) (position : Position) : Run FieldMember := do
  resolver.field (← position.owner) name position.scope position.value?

def methodAt (resolver : Resolver) (name : String) (arguments : List Value)
    (position : Position) : Run MethodMember := do
  resolver.method (← position.owner) name arguments position.scope position.value?

def valuesOf (text : String) (entries : ArgumentMap) : List String → Except Fault (List Value)
  | [] => .ok []
  | key :: keys =>
      match Entries.get? entries key with
      | none => .error (.missingArgument text (some key))
      | some value => (valuesOf text entries keys).map (value :: ·)

/-- The arguments of a method node.  A method without keys never looks at the map. -/
def argumentValues (text : String) (keys : List String) (arguments : Option ArgumentMap) :
    Except Fault (List Value) :=
  match keys, arguments with
  | [], _ => .ok []
  | _, none => .error (.missingArgument text none)
  | _, some [] => .error (.missingArgument text none)
  | _, some entries => valuesOf text entries keys

/-! ## Elements -/

/-- What messages call a value that is no array. -/
def nonArrayName (value : Value) : Run String := do
  let kind := (← get).kind value
  if kind = .object && value ≠ .null then
    Run.typeText (← Run.typeOf value)
  else
    pure kind.name

def notAnArray (text : String) (value : Value) : Run Fault := do
  pure (.unsupportedOperation (.notAnArray text (← nonArrayName value)))

/-- Reads an element; nothing is found in a missing array. -/
def loadElement (text : String) (index : Nat) (array : Value) : Run Value := do
  if array.isMissing then
    pure .null
  else if (← get).isArray array then
    Run.readWith perform array (.ofIndex index)
  else
    throw (← notAnArray text array)

/-- Writes an element; the array grows when the index is past its end. -/
def storeElement (text : String) (index : Nat) (array value : Value) : Run Unit := do
  if (← get).isArray array then
    Run.assignStrictly perform array (.ofIndex index) value
  else
    throw (← notAnArray text array)

/-- The fault that a node which indexes its target is applied to a class. -/
def indexesType (text : String) (owner : Value) : Run Fault := do
  pure (.unsupportedOperation (.indexesType text (← Run.typeText owner)))

/-! ## Reading -/

def read (resolver : Resolver) (arguments : Option ArgumentMap) (position : Position) :
    Node → Run Value
  | .field _ name => do
      let member ← fieldAt resolver name position
      member.get position.target
  | .method _ text name keys => do
      let values ← Run.lift (argumentValues text keys arguments)
      let member ← methodAt resolver name values position
      member.invoke position.target values
  | .array _ text index none =>
      match position with
      | .onValue target => loadElement text index target
      | .onClass owner => do throw (← indexesType text owner)
  | .array _ text index (some inner) => do
      let array ← inner.read resolver arguments position
      loadElement text index array

/-! ## Types -/

def typeAt (resolver : Resolver) (arguments : Option ArgumentMap) (position : Position) :
    Node → Run Value
  | .field _ name => do
      let member ← fieldAt resolver name position
      pure member.type
  | .method _ text name keys => do
      let values ← Run.lift (argumentValues text keys arguments)
      let member ← methodAt resolver name values position
      pure member.returnType
  | .array _ text _ none =>
      match position with
      | .onValue _ => pure openType
      | .onClass owner => do throw (← indexesType text owner)
  | .array _ _ _ (some inner) => do
      let type ← inner.typeAt resolver arguments position
      Run.componentOf type

/-- The member that a node names on a class, without any value.  A node that indexes
its target names none. -/
def member? (resolver : Resolver) (arguments : Option ArgumentMap) (owner : Value)
    (scope : Scope) : Node → Run (Option Member)
  | .field _ name => do
      let member ← resolver.field owner name scope none
      pure (some (.field member))
  | .method _ text name keys => do
      let values ← Run.lift (argumentValues text keys arguments)
      let member ← resolver.method owner name values scope none
      pure (some (.method member))
  | .array _ _ _ none => pure none
  | .array _ _ _ (some inner) => inner.member? resolver arguments owner scope

/-! ## Writing -/

/-- Writes a value through a node at a position.  The result is false when the write
could not happen because an inner array was missing and no factory supplied one. -/
def write (resolver : Resolver) (arguments : Option ArgumentMap) (factory : Option Factory)
    (position : Position) (value : Value) : Node → Run Bool
  | .field _ name => do
      let member ← fieldAt resolver name position
      member.set position.target value
      pure true
  | .method _ text name _ =>
      match setterOf name with
      | none => throw (.unsupportedWrite text)
      | some setter => do
          let member ← methodAt resolver setter [value] position
          let _ ← member.invoke position.target [value]
          pure true
  | .array _ text index none =>
      match position with
      | .onValue target => do
          storeElement text index target value
          pure true
      | .onClass owner => do throw (← indexesType text owner)
  | .array _ text index (some inner) => do
      let array ← inner.read resolver arguments position
      if array.isMissing then
        match factory with
        | none => pure false
        | some supply =>
            let type ← inner.typeAt resolver arguments position
            let made ← produce supply (← Run.requestedArray type) arguments
            if made.isMissing then
              pure false
            else
              -- The answer is not looked at: the value goes into the new array either way.
              let _ ← inner.write resolver arguments factory position made
              storeElement text index made value
              pure true
      else
        storeElement text index array value
        pure true

end Node

end ObjectPath
