import ObjectPath.Class.Declare

/-!
Defining classes.  The classes of one list come into being first, in order, with nothing
but their constructors.  Then each class gets its members one after the other, and each
member is declared as soon as it is there.  Last the fields of the classes themselves get
their values.
-/

namespace ObjectPath.Run

/-! ## Classes -/

/-- A new class and the object that its instances share, which finds the class as its
`constructor`. -/
def newClass (name : String) (parent? : Option Value) (setup : Setup) : Run Value := do
  let functionPlace := BuiltinClass.function.sharedPlace
  let objectPlace := BuiltinClass.object.sharedPlace
  let (ownerParent, sharedParent) ← match parent? with
    | some parent => do
        pure (parent.place?.getD functionPlace, (← read parent "prototype").place?)
    | none => pure (functionPlace, some objectPlace)
  let owner ← allocate
    ⟨some ownerParent, .function (.definedClass parent?.isSome setup), functionSlots name, true⟩
  let shared ← allocate
    ⟨sharedParent, .plain, [(.name "constructor", .data owner .hidden)], true⟩
  modify (·.enter owner (.name "prototype") (.data shared .fixed))
  pure owner

/-- Brings one class into being and gives it its name for scripts. -/
def introduce (definition : ClassDefinition) : Run Unit := do
  let parent := definition.parent.bind (Entries.get? (← get).classNames)
  let owner ← newClass definition.name parent
    { failure := definition.failure
      requirement := definition.requirement
      fields := (definition.fields.filter (·.scope = .onInstance)).map fun field =>
        ⟨field.name, field.position, field.initial⟩ }
  modify fun graph =>
    { graph with classNames := Entries.put graph.classNames definition.identifier owner }

/-- The class that a definition is about: the last one of its name. -/
def classOf (definition : ClassDefinition) : Run Value := do
  pure ((Entries.get? (← get).classNames definition.identifier).getD .undefined)

/-- What holds the members of a scope: the class, or the object that its instances share. -/
def holder (owner : Value) : Scope → Run Value
  | .onClass => pure owner
  | .onInstance => read owner "prototype"

/-! ## Members -/

def accessorHalf (name : String) (body : Option (List Statement)) : Run (Option Nat) := do
  match body with
  | none => pure none
  | some statements => do pure (← newFunction name statements).place?

/-- What becomes of an own member when the halves of an accessor are defined on it.  The
halves that are not given stay as they are; without any the member stays, and a new one
is a slot that cannot be written. -/
def mergeAccessor (getter setter : Option Nat) (existing : Option Property) : Property :=
  match getter, setter, existing with
  | none, none, none => .data .undefined .labelling
  | none, none, some property => property
  | _, _, some (.accessor oldGetter oldSetter enumerable _) =>
      .accessor (getter <|> oldGetter) (setter <|> oldSetter) enumerable true
  | _, _, _ => .accessor getter setter false true

def defineAccessorMember (owner : Value) (definition : AccessorDefinition) : Run Unit := do
  let target ← holder owner definition.scope
  let getter ← accessorHalf definition.name definition.getter
  let setter ← accessorHalf definition.name definition.setter
  let key := Key.ofText definition.name
  defineMember target key (mergeAccessor getter setter ((← get).own? target key))
  decorate target definition.name definition.decoration

def defineMethodMember (owner : Value) (definition : MethodDefinition) : Run Unit := do
  let target ← holder owner definition.scope
  let function ← newFunction definition.name definition.body
  defineMember target (.ofText definition.name) (.data function .hidden)
  decorate target definition.name definition.decoration

/-- Declares the fields of a class, then defines its accessors and its methods. -/
def defineMembers (definition : ClassDefinition) : Run Unit := do
  let owner ← classOf definition
  for field in definition.fields do
    -- Only fields with a type are declared; the others are known by their slots.
    match field.type with
    | some name => decorate (← holder owner field.scope) field.name (.field (.type name))
    | none => pure ()
  for accessor in definition.accessors do
    defineAccessorMember owner accessor
  for method in definition.methods do
    defineMethodMember owner method

/-- Gives the fields of a class itself their values. -/
def fillStatics (definition : ClassDefinition) : Run Unit := do
  let owner ← classOf definition
  for field in definition.fields do
    if field.scope = .onClass then
      let value ← build field.initial
      define owner (.ofText field.name) value

def defineClasses (definitions : List ClassDefinition) : Run Unit := do
  for definition in definitions do
    introduce definition
  -- Every class is there before members are defined, since members may name any of them.
  for definition in definitions do
    defineMembers definition
  for definition in definitions do
    fillStatics definition

end ObjectPath.Run
