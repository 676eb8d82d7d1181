import ObjectPath.Typing

/-!
Type registries.  A static expression names its root type in text, so a registry
binds each name to one type and each type to one name.  Both directions are kept in
a table of their own.  No binding is ever changed or dropped.
-/

namespace ObjectPath

/-- The types under their names and the names under their types, each in order of
registration.  A name is a text unless a type gives something else as its name. -/
structure Registry where
  byName : List (Value × Value)
  byType : List (Value × Value)

namespace Registry

def empty : Registry :=
  ⟨[], []⟩

/-! ## Looking up -/

def lookUp (table : List (Value × Value)) (key : Value) : Option Value :=
  (table.find? (·.1.sameOrNan key)).map (·.2)

def type? (registry : Registry) (name : Value) : Option Value :=
  lookUp registry.byName name

def name? (registry : Registry) (type : Value) : Option Value :=
  lookUp registry.byType type

def has (registry : Registry) (name : String) : Bool :=
  (registry.type? (.string name)).isSome

/-- The type bound to a name, which must be bound. -/
def resolve (registry : Registry) (name : String) : Except Fault Value :=
  match registry.type? (.string name) with
  | some type => .ok type
  | none => .error (.unknownType name)

/-! ## Registering -/

/-- Adds a binding of a name and a type that are both not bound. -/
def bind (registry : Registry) (name type : Value) : Registry :=
  ⟨registry.byName ++ [(name, type)], registry.byType ++ [(type, name)]⟩

/-- Binds a name to a type.  Binding the same pair again does nothing; a name or a type
that is bound otherwise is refused. -/
def register (registry : Registry) (name type : Value) : Run Registry := do
  match registry.type? name with
  | some existing =>
      if existing.same type then
        pure registry
      else
        let nameText ← Run.messageText perform name
        let existingText ← Run.messageText perform (← Run.step existing "name")
        throw (.registry (.nameTaken nameText existingText))
  | none =>
      match registry.name? type with
      | some existingName =>
          let typeText ← Run.messageText perform (← Run.step type "name")
          throw (.registry (.typeTaken typeText (← Run.messageText perform existingName)))
      | none => pure (registry.bind name type)

/-- The name bound to a type.  A type without one is registered under its own name first;
then none is given, and the name is what the type itself gives from there on. -/
def nameOf (registry : Registry) (type : Value) : Run (Option Value × Registry) := do
  match registry.name? type with
  | some name => pure (some name, registry)
  | none =>
      if (← Run.step type "name").isTruthy then
        -- The name may be given by a getter, which is run once more each time it is asked for.
        let later ← registry.register (← Run.step type "name") type
        pure (none, later)
      else
        throw (.registry .anonymous)

end Registry

end ObjectPath
