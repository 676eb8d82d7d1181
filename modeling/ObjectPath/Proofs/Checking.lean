import ObjectPath.Class.Define
import ObjectPath.Graph.Standard
import ObjectPath.Proofs.Conforming
import ObjectPath.Proofs.Defaults

/-!
# Checks of given graphs

Whether a graph that is given is sound, whether what is reached in it from some values is plain
data, and whether the default factory runs no constructor for it can be found out by
evaluation.  The checks look at every object and every entry once.
-/

namespace ObjectPath

open Graph

namespace Graph

/-! ## Checks -/

/-- Whether a value is simple or an object that is there. -/
def knows (graph : Graph) (value : Value) : Bool :=
  value.place?.all (decide <| · < graph.objects.size)

/-- Whether the parents above a start end within a number of steps. -/
def ends (graph : Graph) : Nat → Option Nat → Bool
  | _, none => true
  | 0, some _ => false
  | limit + 1, some place => ends graph limit ((graph.object? place).bind (·.parent))

/-- Whether a slot refers only to what is there, and computes nothing where types are looked
up. -/
def allowsSlot (graph : Graph) : Key × Property → Bool
  | (_, .data content _) => graph.knows content
  | (key, .accessor _ _ _ _) => !typeKeys.contains key

/-- Whether a function has a name in a slot. -/
def allowsName (object : Object) : Bool :=
  match object.body with
  | .function _ =>
      match Entries.get? object.slots (.name "name") with
      | some (.data content flags) => !content.isObject && (!content.isMissing || !flags.writable)
      | _ => false
  | _ => true

/-- Whether a value is a function or the type of some arrays. -/
def isType (graph : Graph) (value : Value) : Bool :=
  graph.isCallable value || graph.isArrayType value

/-- Whether a value finds the built-in accessor that names array types. -/
def namesArrays (graph : Graph) (value : Value) : Bool :=
  match graph.find? value (.name "name") with
  | some (.accessor (some getter) none _ _) =>
      match graph.callee? (.object getter) with
      | some (.builtin function) => function == .arrayTypeName
      | _ => false
  | _ => false

/-- Whether the object at a place is as a sound graph wants it. -/
def allowsObject (graph : Graph) (place : Nat) (object : Object) : Bool :=
  object.parent.all (decide <| · < graph.objects.size) &&
    graph.ends graph.objects.size (some place) &&
    object.slots.all graph.allowsSlot && allowsName object &&
    (!graph.isArrayType (.object place) ||
      graph.namesArrays (.object place) &&
        graph.isType (graph.member (.object place) (.name "componentType")))

/-- Whether the types that are entered for components are the types of the arrays over them. -/
def allowsArrayTypes (graph : Graph) : Bool :=
  graph.arrayTypes.all fun entry =>
    graph.isArrayType (.object entry.2) &&
      graph.member (.object entry.2) (.name "componentType") == entry.1

/-- Whether the types of declared fields are types. -/
def allowsDeclarations (graph : Graph) : Bool :=
  graph.declarations.all fun entry =>
    [Scope.onInstance, .onClass].all fun scope =>
      (entry.2.fields scope).all fun field => graph.isType field.2.type

/-- Whether the built-in classes are where they belong. -/
def allowsClasses (graph : Graph) : Bool :=
  BuiltinClass.all.all (fun owner =>
      decide (owner.place < graph.objects.size) &&
        !graph.isArrayType (.object owner.sharedPlace)) &&
    graph.namesArrays (.object BuiltinClass.arrayType.sharedPlace) &&
    (match graph.callee? openType with
      | some (.builtinClass .object) => true
      | _ => false) &&
    graph.isCallable (.object BuiltinClass.array.place)

/-- Whether a graph is sound, found out by looking at it once. -/
def isSound (graph : Graph) : Bool :=
  graph.allowsClasses && graph.allowsArrayTypes && graph.allowsDeclarations &&
    (List.range graph.objects.size).all fun place =>
      (graph.object? place).all (graph.allowsObject place)

/-- Whether lookups of some keys do not leave a list of values and meet no accessor. -/
def isRegion (graph : Graph) (keys : List Key) (values : List Value) : Bool :=
  values.all fun value => keys.all fun key =>
    match graph.look? value key with
    | some content => content.isMissing || values.contains content
    | none => false

/-- Whether a list of types has those of all fields, and the components of all types of arrays
in it. -/
def covers (graph : Graph) (types : List Value) : Bool :=
  types.contains openType &&
    types.all (fun type => graph.isType type &&
      (!graph.isArrayType type || types.contains (graph.member type (.name "componentType")))) &&
    graph.declarations.all fun entry =>
      (entry.2.fields .onInstance).all fun field => types.contains field.2.type

/-- Whether a list of types covers what may be asked for, and the default factory has a value of
its own for every type in it. -/
def isStocked (graph : Graph) (types : List Value) : Bool :=
  graph.covers types && types.all fun type => type == openType || graph.isArrayType type ||
    (Entries.get? (ProducerTable.standard .standard).producers type).isSome

/-! ## What the checks say -/

variable {graph : Graph}

theorem knows_iff {value : Value} : graph.knows value = true ↔ graph.Knows value := by
  cases value <;> simp [knows, Knows, Value.place?]

theorem ends_iff {limit : Nat} {start : Option Nat} :
    graph.ends limit start = true ↔ graph.Ends limit start := by
  induction limit generalizing start with
  | zero => cases start <;> simp [ends, Ends]
  | succ limit inductionHypothesis =>
      cases start with
      | none => simp [ends, Ends]
      | some place => exact inductionHypothesis

theorem isType_iff {value : Value} : graph.isType value = true ↔ graph.IsType value := by
  rw [isType, IsType, Bool.or_eq_true]

theorem namesArrays_of_check {value : Value} (checked : graph.namesArrays value = true) :
    graph.NamesArrays value := by
  unfold namesArrays at checked
  split at checked
  · rename_i getter enumerable configurable found
    split at checked
    · rename_i function isFunction
      exact ⟨getter, enumerable, configurable, found, by rw [isFunction, eq_of_beq checked]⟩
    · cases checked
  · cases checked

/-- An own member of an object is a slot, or a simple value that belongs to what it is. -/
theorem own?_cases {object : Object} {key : Key} {property : Property}
    (isOwn : object.own? key = some property) :
    (∃ content flags, property = .data content flags ∧ content.isObject = false) ∨
      (key, property) ∈ object.slots := by
  unfold Object.own? at isOwn
  split at isOwn
  · rename_i intrinsic
    cases isOwn
    unfold Object.intrinsic? at intrinsic
    split at intrinsic
    · split at intrinsic
      · cases intrinsic
        exact Or.inl ⟨_, _, rfl, rfl⟩
      · cases intrinsic
    · unfold textOwn? at intrinsic
      split at intrinsic
      · cases intrinsic
        exact Or.inl ⟨_, _, rfl, rfl⟩
      · obtain ⟨unit, _, rfl⟩ := Option.map_eq_some_iff.1 intrinsic
        exact Or.inl ⟨_, _, rfl, rfl⟩
      · cases intrinsic
    · cases intrinsic
  · exact Or.inr (Entries.mem_of_get? isOwn)

section Sound

variable (checked : graph.isSound = true)

include checked

/-- What the checks say of an object that is there. -/
theorem allowsObject_of_check {place : Nat} {object : Object}
    (found : graph.object? place = some object) : graph.allowsObject place object = true := by
  unfold isSound at checked
  have all := List.all_eq_true.1 (Bool.and_eq_true_iff.1 checked).2 place
    (List.mem_range.2 (lt_of_object? found))
  rwa [found] at all

/-- What the checks say of an own member. -/
theorem allowsSlot_of_check {place : Nat} {key : Key} {property : Property}
    (isOwn : graph.ownAt? place key = some property) : graph.allowsSlot (key, property) = true := by
  obtain ⟨object, found, own⟩ := Option.bind_eq_some_iff.1 isOwn
  have allowed := graph.allowsObject_of_check checked found
  simp only [allowsObject, Bool.and_eq_true] at allowed
  rcases own?_cases own with ⟨content, flags, rfl, simple⟩ | slot
  · exact knows_iff.2 (knows_of_isObject_eq_false simple)
  · exact List.all_eq_true.1 allowed.1.1.2 _ slot

theorem closed_of_check : graph.Closed where
  classes := by
    intro owner
    simp only [isSound, allowsClasses, Bool.and_eq_true] at checked
    have all := List.all_eq_true.1 checked.1.1.1.1.1.1 owner (by cases owner <;> decide)
    simp only [Bool.and_eq_true, decide_eq_true_eq] at all
    exact all.1
  parents := by
    intro place parent object found isParent
    have allowed := graph.allowsObject_of_check checked found
    simp only [allowsObject, Bool.and_eq_true, isParent, Option.all_some, decide_eq_true_eq]
      at allowed
    exact allowed.1.1.1.1
  contents := fun isOwn => knows_iff.1 (graph.allowsSlot_of_check checked isOwn)
  ended := by
    intro place inside
    obtain ⟨object, found⟩ := object?_of_lt inside
    have allowed := graph.allowsObject_of_check checked found
    simp only [allowsObject, Bool.and_eq_true] at allowed
    exact ends_iff.1 allowed.1.1.1.2

theorem classed_of_check : graph.Classed where
  toClosed := graph.closed_of_check checked
  plain := by
    intro place key property isTypeKey isOwn
    have allowed := graph.allowsSlot_of_check checked isOwn
    cases property with
    | data content flags => exact ⟨content, flags, rfl⟩
    | accessor getter setter enumerable configurable =>
        simp only [allowsSlot, Bool.not_eq_true', List.contains_eq_mem, decide_eq_false_iff_not]
          at allowed
        exact absurd isTypeKey allowed

theorem named_of_check {place : Nat} (callable : graph.isCallable (.object place) = true) :
    ∃ content flags, graph.ownAt? place (.name "name") = some (.data content flags) ∧
      content.isObject = false ∧ (content.isMissing = true → flags.writable = false) := by
  obtain ⟨object, found⟩ := object?_of_lt (knows_object.1 (knows_of_isCallable callable))
  have allowed := graph.allowsObject_of_check checked found
  simp only [allowsObject, Bool.and_eq_true] at allowed
  obtain ⟨parent, body, slots, extensible⟩ := object
  simp only [isCallable, callee?, objectOf?, Value.place?, Option.bind_some, found] at callable
  cases body with
  | function callee =>
      have named := allowed.1.2
      simp only [allowsName] at named
      split at named
      · rename_i content flags slot
        simp only [Bool.and_eq_true, Bool.or_eq_true, Bool.not_eq_true'] at named
        refine ⟨content, flags, ?_, named.1, fun missing => ?_⟩
        · rw [ownAt?, found, Option.bind_some, Object.own?_eq_slot rfl]
          exact slot
        · rcases named.2 with present | readOnly
          · rw [missing] at present
            cases present
          · exact readOnly
      · cases named
  | _ => cases callable

/-- What the checks say of the types of arrays. -/
theorem arrayType_of_check {value : Value} (isArrayType : graph.isArrayType value = true) :
    graph.NamesArrays value ∧ graph.IsType (graph.member value (.name "componentType")) := by
  cases value with
  | object place =>
      obtain ⟨object, found⟩ := object?_of_lt (knows_object.1 (knows_of_isArrayType isArrayType))
      have allowed := graph.allowsObject_of_check checked found
      simp only [allowsObject, isArrayType, Bool.and_eq_true, Bool.not_true, Bool.false_or]
        at allowed
      exact ⟨namesArrays_of_check allowed.2.1, isType_iff.1 allowed.2.2⟩
  | _ => cases isArrayType

/-- A graph that passes the checks is sound. -/
theorem sound_of_check : graph.Sound where
  toClassed := graph.classed_of_check checked
  named := graph.named_of_check checked
  arrayName := fun isArrayType => (graph.arrayType_of_check checked isArrayType).1
  component := fun isArrayType => (graph.arrayType_of_check checked isArrayType).2
  sharedName := by
    simp only [isSound, allowsClasses, Bool.and_eq_true] at checked
    exact namesArrays_of_check checked.1.1.1.1.1.2
  sharedType := by
    intro owner
    simp only [isSound, allowsClasses, Bool.and_eq_true] at checked
    have all := List.all_eq_true.1 checked.1.1.1.1.1.1 owner (by cases owner <;> decide)
    simpa using (Bool.and_eq_true_iff.1 all).2
  arrayTypes := by
    intro component place found
    simp only [isSound, allowsArrayTypes, Bool.and_eq_true] at checked
    have all := List.all_eq_true.1 checked.1.1.2 _ (Entries.mem_of_get? found)
    simpa using all
  declaredType := by
    intro place scope name field found
    simp only [isSound, allowsDeclarations, Bool.and_eq_true] at checked
    unfold declarationsAt at found
    cases declared : Entries.get? graph.declarations place with
    | none =>
        rw [declared] at found
        cases found
    | some declarations =>
        rw [declared] at found
        have all := List.all_eq_true.1 checked.1.2 _ (Entries.mem_of_get? declared)
        have inScope := List.all_eq_true.1 all scope (by cases scope <;> decide)
        exact isType_iff.1 (List.all_eq_true.1 inScope _ (Entries.mem_of_get? found))
  openClass := by
    simp only [isSound, allowsClasses, Bool.and_eq_true] at checked
    have isClass := checked.1.1.1.1.2
    split at isClass
    · assumption
    · cases isClass
  arrayClass := by
    simp only [isSound, allowsClasses, Bool.and_eq_true] at checked
    exact checked.1.1.1.2

end Sound

/-- What is in a list that passes the check is plain data. -/
theorem plain_of_check {keys : List Key} {values : List Value}
    (checked : graph.isRegion keys values = true) {value : Value} (listed : value ∈ values) :
    graph.Plain keys 0 value := by
  refine ⟨fun other => other.isMissing = true ∨ ∃ member ∈ values, Value.Like member other,
    ⟨?_, ?_, fun _ => Nat.zero_le _⟩, Or.inr ⟨value, listed, Value.Like.refl value⟩⟩
  · rintro other key (missing | ⟨member, isMember, like⟩) present named
    · rw [missing] at present
      cases present
    · have looks := List.all_eq_true.1 (List.all_eq_true.1 checked member isMember) key named
      split at looks
      · rename_i content looked
        refine ⟨content, by rw [look?, find?_of_like graph like]; exact looked, ?_⟩
        rw [Bool.or_eq_true, List.contains_iff_mem] at looks
        exact looks.imp id fun isInside => ⟨content, isInside, Value.Like.refl content⟩
      · cases looks
  · rintro other later (missing | ⟨member, isMember, likeOther⟩) like
    · exact Or.inl (by rw [like.isMissing, missing])
    · exact Or.inr ⟨member, isMember, likeOther.trans like⟩

section Covers

variable {start : Graph} {types : List Value} (sound : start.Sound)
  (checked : start.covers types = true) (same : start.SameTypes graph)
include sound checked same

/-- What is asked for is in the list that passed the check, or an array over the open type. -/
theorem requested_of_covers (soundLater : graph.Sound) {type : Value}
    (requested : graph.Requested type) :
    type ∈ types ∨ graph.isArrayType type = true ∧
      graph.member type (.name "componentType") = openType := by
  simp only [Graph.covers, Bool.and_eq_true, List.contains_iff_mem, List.all_eq_true] at checked
  obtain ⟨⟨openListed, listed⟩, declared⟩ := checked
  induction requested with
  | openType => exact Or.inl openListed
  | @declared place name field found =>
      unfold declarationsAt at found
      rw [same.declared] at found
      cases entered : Entries.get? start.declarations place with
      | none =>
          rw [entered] at found
          cases found
      | some declarations =>
          rw [entered] at found
          exact Or.inl (declared _ (Entries.mem_of_get? entered) _ (Entries.mem_of_get? found))
  | @component type _ isArrayType inductionHypothesis =>
      rcases inductionHypothesis with isListed | ⟨_, isOpen⟩
      · obtain ⟨isType, component⟩ := listed type isListed
        have known := (isType_iff.1 isType).knows
        have wasArrayType : start.isArrayType type = true := by
          rwa [same.isArrayType sound.toClosed known] at isArrayType
        rw [same.component wasArrayType]
        simp only [wasArrayType, Bool.not_true, Bool.false_or, List.contains_iff_mem] at component
        exact Or.inl component
      · exact Or.inl (isOpen ▸ openListed)
  | openArrays found => exact Or.inr (soundLater.arrayTypes found)

/-- The types in a list that passed the check are types from the start. -/
theorem isArrayType_of_covers {type : Value} (listed : type ∈ types) :
    graph.isArrayType type = start.isArrayType type := by
  simp only [Graph.covers, Bool.and_eq_true, List.all_eq_true] at checked
  exact same.isArrayType sound.toClosed (isType_iff.1 (checked.1.2 type listed).1).knows

end Covers

end Graph

namespace Scene

variable {scene : Scene} {types : List Value}

/-- If the default factory is stocked it runs no constructors. -/
theorem constructs_of_check (sound : scene.start.Sound)
    (checked : scene.start.isStocked types = true) : scene.Constructs := by
  intro graph type holds requested notOpen notArray notProduced
  obtain ⟨covers, stocked⟩ := Bool.and_eq_true_iff.1 checked
  have same := holds.grows.sameTypes sound
  rcases requested_of_covers sound covers same holds.sound requested with isListed | ⟨isArrayType, _⟩
  · have isStocked := List.all_eq_true.1 stocked type isListed
    rw [← isArrayType_of_covers sound covers same isListed, notArray, notProduced] at isStocked
    simp [notOpen] at isStocked
  · rw [notArray] at isArrayType
    cases isArrayType

end Scene

/-! ## A class of grids -/

/-- The standard graph with a class of grids, whose cells are arrays of arrays of numbers, and
with a grid without cells and with a slot that is no declared field. -/
@[irreducible]
def gridGraph : Graph :=
  stateAfter (do
    let owner ← Run.newClass "Grid" none ⟨none, none, [⟨"cells", none, .null⟩]⟩
    let shared ← Run.read owner "prototype"
    let cells ← Run.nest (.object BuiltinClass.number.place) 2
    Run.declareField shared "cells" cells
    Run.allocate ⟨shared.place?, .plain, Run.dataSlots [(.name "cells", .null), (.name "free", .null)],
      true⟩)
    Graph.standard

/-- The grid without cells. -/
def emptyGrid : Value :=
  .object (gridGraph.objects.size - 1)

/-- The type of arrays of arrays of numbers. -/
def gridType : Value :=
  .object (gridGraph.objects.size - 2)

theorem sound_gridGraph : gridGraph.Sound :=
  sound_of_check (by decide +kernel)

/-- The types that may be asked for under a grid. -/
theorem stocked_gridGraph :
    gridGraph.isStocked [openType, gridType, gridGraph.member gridType (.name "componentType"),
      .object BuiltinClass.number.place] = true := by
  decide +kernel

end ObjectPath
