import ObjectPath.Proofs.Reading

/-!
# Values that conform to declared types

A value conforms to a type if it is missing or of that type, and the elements of an array that
is to have a component type conform to that in turn.  Objects may refer to one another in
cycles, so only the elements of arrays are followed, and only down to a depth: what conforms
does so down to every depth.  Which type is asked for depends on classes and components alone,
so it stays the same wherever these do.
-/

namespace ObjectPath

/-! ## Types of values -/

/-- The class of which a text, a number or a truth value is a primitive. -/
def Value.primitiveOf? : Value → Option Value
  | .string _ => some (.object BuiltinClass.string.place)
  | .number _ => some (.object BuiltinClass.number.place)
  | .boolean _ => some (.object BuiltinClass.boolean.place)
  | _ => none

/-- The classes that stand for their primitives where a field is declared. -/
def primitiveTypes : List Value :=
  [.object BuiltinClass.string.place, .object BuiltinClass.number.place,
    .object BuiltinClass.boolean.place]

namespace Graph

/-- Whether a value is an instance of a class or of one that descends from it. -/
def isInstance (graph : Graph) (value owner : Value) : Bool :=
  match graph.member owner (.name "prototype") with
  | .object shared => graph.descendsFrom value shared
  | _ => false

/-- Whether a value that is there is of a type, whatever its elements are. -/
def takes (graph : Graph) (type value : Value) : Bool :=
  if type = openType then true
  else if type ∈ primitiveTypes then decide (value.primitiveOf? = some type)
  else if graph.isArrayType type then graph.isArray value
  else graph.isInstance value type

/-- The type of the elements of an array that is of a type. -/
def componentType (graph : Graph) (type : Value) : Value :=
  if graph.isArrayType type then graph.member type (.name "componentType") else openType

/-- The field that the class of a value declares under a name, the nearest one of its ancestors
included. -/
def declaration? (graph : Graph) (value : Value) (name : String) : Option FieldDeclaration :=
  Entries.get? (graph.fields (graph.classOf value) .onInstance) name

/-- The type that a value is declared to have under a name; without a declaration it is open. -/
def fieldType (graph : Graph) (value : Value) (name : String) : Value :=
  match graph.declaration? value name with
  | some declaration => declaration.type
  | none => openType

/-- Whether a value conforms to a type down to a depth. -/
def ConformsWithin (graph : Graph) : Nat → Value → Value → Prop
  | 0, _, _ => True
  | depth + 1, type, value =>
      value.isMissing = true ∨ graph.takes type value = true ∧
        (graph.isArray value = true → ∀ index,
          graph.ConformsWithin depth (graph.componentType type)
            (graph.member value (.ofIndex index)))

/-- Whether a value conforms to a type. -/
def Conforms (graph : Graph) (type value : Value) : Prop :=
  ∀ depth, graph.ConformsWithin depth type value

variable {graph : Graph}

theorem Conforms.of_isMissing {type value : Value} (missing : value.isMissing = true) :
    graph.Conforms type value
  | 0 => trivial
  | _ + 1 => Or.inl missing

theorem Conforms.takes {type value : Value} (conforms : graph.Conforms type value)
    (present : value.isMissing = false) : graph.takes type value = true := by
  rcases conforms 1 with missing | ⟨takes, _⟩
  · rw [present] at missing
    cases missing
  · exact takes

theorem isMissing_of_isArray {value : Value} (isArray : graph.isArray value = true) :
    value.isMissing = false := by
  cases value with
  | undefined => cases isArray
  | null => cases isArray
  | _ => rfl

/-- A value without elements conforms to what it is of. -/
theorem Conforms.of_takes {type value : Value} (takes : graph.takes type value = true)
    (noArray : graph.isArray value = false) : graph.Conforms type value
  | 0 => trivial
  | _ + 1 => Or.inr ⟨takes, fun isArray => by rw [noArray] at isArray; cases isArray⟩

/-- The elements of an array that conforms to a type conform to its component type. -/
theorem Conforms.component {type value : Value} (conforms : graph.Conforms type value)
    (isArray : graph.isArray value = true) (index : Nat) :
    graph.Conforms (graph.componentType type) (graph.member value (.ofIndex index)) := by
  intro depth
  rcases conforms (depth + 1) with missing | ⟨_, elements⟩
  · rw [isMissing_of_isArray isArray] at missing
    cases missing
  · exact elements isArray index

/-- A class is no type of arrays. -/
theorem Sound.isArrayType_of_isCallable (sound : graph.Sound) {value : Value}
    (callable : graph.isCallable value = true) : graph.isArrayType value = false := by
  cases isArrayType : graph.isArrayType value with
  | false => rfl
  | true =>
      cases value with
      | object place =>
          obtain ⟨content, flags, own, _⟩ := sound.named callable
          obtain ⟨getter, enumerable, configurable, found, _⟩ := sound.arrayName isArrayType
          have foundOwn : graph.find? (.object place) (.name "name") =
              some (.data content flags) := by
            simp only [find?, own?, own]
          rw [foundOwn] at found
          cases found
      | _ => cases callable

theorem Sound.componentType_openType (sound : graph.Sound) :
    graph.componentType ObjectPath.openType = ObjectPath.openType := by
  rw [componentType, sound.isArrayType_of_isCallable sound.openType, if_neg Bool.false_ne_true]

/-- Anything conforms to the open type. -/
theorem Sound.conforms_openType (sound : graph.Sound) (value : Value) :
    graph.Conforms ObjectPath.openType value := by
  intro depth
  induction depth generalizing value with
  | zero => trivial
  | succ depth inductionHypothesis =>
      refine Or.inr ⟨if_pos rfl, fun _ index => ?_⟩
      rw [sound.componentType_openType]
      exact inductionHypothesis _

/-- A number is of every type that another one is of. -/
theorem takes_of_like {type value other : Value} (like : Value.Like value other) :
    graph.takes type other = graph.takes type value := by
  rcases like with rfl | ⟨old, new, rfl, rfl⟩
  · rfl
  · rfl

theorem Conforms.of_like {type value other : Value} (conforms : graph.Conforms type value)
    (like : Value.Like value other) : graph.Conforms type other
  | 0 => trivial
  | depth + 1 => by
      rcases conforms (depth + 1) with missing | ⟨takes, elements⟩
      · exact Or.inl (like.isMissing.trans missing)
      · refine Or.inr ⟨(takes_of_like like).trans takes, fun isArray index => ?_⟩
        rcases like with rfl | ⟨old, new, rfl, rfl⟩
        · exact elements isArray index
        · cases isArray

theorem fieldType_of_declaration? {value : Value} {name : String} {declaration : FieldDeclaration}
    (declared : graph.declaration? value name = some declaration) :
    graph.fieldType value name = declaration.type := by
  rw [fieldType, declared]

theorem Sound.fieldType_known (sound : graph.Sound) (value : Value) (name : String) :
    graph.Knows (graph.fieldType value name) := by
  unfold fieldType
  split
  · rename_i declaration declared
    obtain ⟨place, found⟩ := exists_declaration declared
    exact (sound.declaredType found).knows
  · exact knows_of_isCallable sound.openType

theorem Sound.componentType_known (sound : graph.Sound) (type : Value) :
    graph.Knows (graph.componentType type) := by
  unfold componentType
  split
  · exact sound.toClosed.member_known type _
  · exact knows_of_isCallable sound.openType

/-! ## Sets of values that conform -/

/-- Whether a step is one that a value takes: to a field that some path names or that the class
of the value declares, or to an element of an array. -/
def Names (graph : Graph) (steps : List Step) (value : Value) : Step → Prop
  | .field name => .field name ∈ steps ∨ (graph.declaration? value name).isSome = true
  | .element _ => graph.isArray value = true

/-- Whether a key is one under which a value is read: that of any step of some path, or of a step
that the value takes. -/
def Reads (graph : Graph) (steps : List Step) (value : Value) (key : Key) : Prop :=
  key ∈ steps.map Step.key ∨ ∃ step, graph.Names steps value step ∧ step.key = key

/-- A set of values whose declared fields conform.  What is read on them is found in slots, and
is in the set again or among the values around it that are no arrays. -/
structure Conforming (graph : Graph) (steps : List Step) (around inside : Value → Prop) :
    Prop where
  known : ∀ {value : Value}, inside value → graph.Knows value
  like : ∀ {value other : Value}, inside value → Value.Like value other → inside other
  looked : ∀ {value : Value} {key : Key}, inside value → value.isMissing = false →
    graph.Reads steps value key → ∃ content, graph.look? value key = some content ∧
      (inside content ∨ around content ∧ graph.isArray content = false)
  fields : ∀ {value : Value} {name : String} {declaration : FieldDeclaration}, inside value →
    value.isMissing = false → graph.declaration? value name = some declaration →
      graph.Conforms declaration.type (graph.member value (.ofText name))

/-- No array is held by two slots of a set of values, save that objects of one class may inherit
the slot.  What the objects inherit from one another is declared alike, and arrays inherit
nothing from them and no elements at all. -/
structure Unshared (graph : Graph) (steps : List Step) (inside : Value → Prop) : Prop where
  alone : ∀ {value other array : Value} {step step' : Step}, inside value → inside other →
    value.isMissing = false → other.isMissing = false →
    graph.Names steps value step → graph.Names steps other step' →
    graph.member value step.key = array → graph.member other step'.key = array →
    graph.isArray array = true →
      step = step' ∧ (other = value ∨ graph.isArray value = false ∧
        graph.isArray other = false ∧ graph.classOf other = graph.classOf value)
  heirs : ∀ {value : Value} {place : Nat}, inside value → inside (.object place) →
    place ∈ graph.ancestors value → graph.isArray value = false ∧
      graph.isArray (.object place) = false ∧ graph.classOf (.object place) = graph.classOf value
  elements : ∀ {value : Value} {place : Nat}, inside value → graph.isArray value = true →
    place ∈ graph.ancestors value → ∀ index, graph.ownAt? place (.ofIndex index) = none

/-- Field names that are no element numbers, neither among some steps nor declared for arrays. -/
structure Lettered (graph : Graph) (steps : List Step) : Prop where
  names : ∀ {name : String}, .field name ∈ steps → ∀ index, Key.ofText name ≠ .ofIndex index
  arrays : ∀ {name : String} {declaration : FieldDeclaration},
    Entries.get? (graph.fields (.object BuiltinClass.array.place) .onInstance) name =
      some declaration → ∀ index, Key.ofText name ≠ .ofIndex index

/-! ## Graphs with the same types -/

/-- A later graph in which classes are what they were and types of arrays have the components
that they had. -/
structure SameTypes (before after : Graph) : Prop extends Steady [] before after where
  component : ∀ {type : Value}, before.isArrayType type = true →
    after.member type (.name "componentType") = before.member type (.name "componentType")

theorem Steady.bare {guarded : List Key} {before after : Graph}
    (steady : before.Steady guarded after) : before.Steady [] after where
  toFollows := steady.toFollows
  classes := steady.classes
  calm := fun impossible => absurd impossible List.not_mem_nil

/-- Growing graphs keep the types of their values. -/
theorem Grows.sameTypes {guarded : List Key} {before after : Graph}
    (grows : before.Grows guarded after) (sound : before.Sound) : before.SameTypes after where
  toSteady := grows.toSteady.bare
  component := by
    intro type isArrayType
    have isType := sound.component isArrayType
    exact (grows.member_like (knows_of_isArrayType isArrayType) isType.isMissing).eq_of_object
      isType.isObject

namespace SameTypes

theorem refl (graph : Graph) : graph.SameTypes graph where
  toSteady := (Extends.refl graph).steady
  component := fun _ => rfl

variable {before after : Graph} (same : before.SameTypes after) (closed : before.Closed)

include same closed

theorem trans {later : Graph} (onward : after.SameTypes later) : before.SameTypes later where
  toSteady := same.toSteady.trans onward.toSteady
  component := by
    intro type isArrayType
    have isArrayTypeAfter : after.isArrayType type = true := by
      rwa [same.isArrayType closed (knows_of_isArrayType isArrayType)]
    rw [onward.component isArrayTypeAfter, same.component isArrayType]

theorem declaration? {value : Value} (known : before.Knows value) (name : String) :
    after.declaration? value name = before.declaration? value name := by
  rw [Graph.declaration?, same.classOf closed known,
    same.fields closed (closed.classOf_known value)]
  rfl

theorem names {steps : List Step} {value : Value} {step : Step} (known : before.Knows value) :
    after.Names steps value step ↔ before.Names steps value step := by
  cases step with
  | field name => rw [Graph.Names, Graph.Names, same.declaration? closed known]
  | element index => rw [Graph.Names, Graph.Names, same.isArray known]

theorem reads {steps : List Step} {value : Value} {key : Key} (known : before.Knows value) :
    after.Reads steps value key ↔ before.Reads steps value key := by
  simp only [Graph.Reads, same.names closed known]

theorem fieldType {value : Value} (known : before.Knows value) (name : String) :
    after.fieldType value name = before.fieldType value name := by
  rw [Graph.fieldType, Graph.fieldType, same.declaration? closed known]

theorem componentType {type : Value} (known : before.Knows type) :
    after.componentType type = before.componentType type := by
  unfold Graph.componentType
  rw [same.isArrayType closed known]
  split
  · rename_i isArrayType
    exact same.component isArrayType
  · rfl

theorem isInstance {value owner : Value} (knownOwner : before.Knows owner)
    (known : before.Knows value) :
    after.isInstance value owner = before.isInstance value owner := by
  unfold Graph.isInstance
  rw [same.member_class closed knownOwner (.name "prototype") (by decide)]
  split
  · exact same.descendsFrom closed known _
  · rfl

theorem takes {type value : Value} (knownType : before.Knows type) (known : before.Knows value) :
    after.takes type value = before.takes type value := by
  unfold Graph.takes
  rw [same.isArrayType closed knownType, same.isArray known,
    same.isInstance closed knownType known]

theorem lettered {steps : List Step} (lettered : before.Lettered steps) :
    after.Lettered steps where
  names := lettered.names
  arrays := by
    rw [same.fields closed (knows_object.2 (closed.classes .array))]
    exact lettered.arrays

end SameTypes

end Graph

end ObjectPath
