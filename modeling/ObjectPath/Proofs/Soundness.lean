import ObjectPath.Proofs.Growth
import ObjectPath.Typing

/-!
# Sound graphs

In a sound graph nothing is computed where types are looked up: the class of a value, what
a class shares and the components of array types are found in slots, every class has its
name in a slot, and array types are named by the built-in accessor.  Filling in a value
where nothing is found keeps a graph sound.
-/

namespace ObjectPath.Graph

/-! ## Types -/

/-- The keys under which types are looked up. -/
def typeKeys : List Key :=
  [.name "constructor", .name "prototype", .name "componentType"]

/-- Whether a value is a type: a function or the type of some arrays. -/
def IsType (graph : Graph) (value : Value) : Prop :=
  graph.isCallable value = true ∨ graph.isArrayType value = true

/-- Whether a value finds the built-in accessor that names array types. -/
def NamesArrays (graph : Graph) (value : Value) : Prop :=
  ∃ getter enumerable configurable,
    graph.find? value (.name "name") =
        some (.accessor (some getter) none enumerable configurable) ∧
      graph.callee? (.object getter) = some (.builtin .arrayTypeName)

/-- A closed graph in which the classes of values, what classes share and the components of
array types are found without computing anything. -/
structure Classed (graph : Graph) : Prop extends Closed graph where
  plain : ∀ {place : Nat} {key : Key} {property : Property}, key ∈ typeKeys →
    graph.ownAt? place key = some property → ∃ content flags, property = .data content flags

/-- A graph in which moreover every type has a name that is found without running any script,
and what is found as a type is one. -/
structure Sound (graph : Graph) : Prop extends Classed graph where
  named : ∀ {place : Nat}, graph.isCallable (.object place) = true →
    ∃ content flags, graph.ownAt? place (.name "name") = some (.data content flags) ∧
      content.isObject = false ∧ (content.isMissing = true → flags.writable = false)
  sharedName : graph.NamesArrays (.object BuiltinClass.arrayType.sharedPlace)
  arrayName : ∀ {value : Value}, graph.isArrayType value = true → graph.NamesArrays value
  sharedType : ∀ owner : BuiltinClass, graph.isArrayType (.object owner.sharedPlace) = false
  component : ∀ {value : Value}, graph.isArrayType value = true →
    graph.IsType (graph.member value (.name "componentType"))
  arrayTypes : ∀ {component : Value} {place : Nat},
    Entries.get? graph.arrayTypes component = some place →
      graph.isArrayType (.object place) = true ∧
        graph.member (.object place) (.name "componentType") = component
  declaredType : ∀ {place : Nat} {scope : Scope} {name : String} {field : FieldDeclaration},
    Entries.get? ((graph.declarationsAt place).fields scope) name = some field →
      graph.IsType field.type
  openClass : graph.callee? openType = some (.builtinClass .object)
  arrayClass : graph.isCallable (.object BuiltinClass.array.place) = true

theorem knows_of_callee?
    {graph : Graph} {value : Value} {callee : Callee} (found : graph.callee? value = some callee) :
    graph.Knows value := by
  rintro place rfl
  by_contra outside
  have absent : graph.object? place = none := Array.getElem?_eq_none (by omega)
  simp [callee?, objectOf?, Value.place?, absent] at found

theorem knows_of_isCallable
    {graph : Graph} {value : Value} (callable : graph.isCallable value = true) :
    graph.Knows value := by
  obtain ⟨callee, found⟩ := Option.isSome_iff_exists.1 callable
  exact knows_of_callee? found

/-- The open type is a class. -/
theorem Sound.openType {graph : Graph} (sound : graph.Sound) :
    graph.isCallable ObjectPath.openType = true := by
  rw [isCallable, sound.openClass]
  rfl

theorem knows_of_isArrayType
    {graph : Graph} {value : Value} (isArrayType : graph.isArrayType value = true) :
    graph.Knows value := by
  rintro place rfl
  by_contra outside
  have absent : graph.object? place = none := Array.getElem?_eq_none (by omega)
  simp only [Graph.isArrayType, descendsFrom, ancestors, parentOf, absent,
    Option.bind_none] at isArrayType
  cases size : graph.objects.size <;> simp [size, placesFrom] at isArrayType

theorem IsType.knows {graph : Graph} {value : Value} (isType : graph.IsType value) :
    graph.Knows value :=
  isType.elim knows_of_isCallable knows_of_isArrayType

theorem IsType.isObject {graph : Graph} {value : Value} (isType : graph.IsType value) :
    value.isObject = true := by
  cases value with
  | object place => rfl
  | _ =>
      simp [IsType, isCallable, callee?, objectOf?, Value.place?, isArrayType, descendsFrom,
        Value.isObject] at isType

theorem IsType.isMissing {graph : Graph} {value : Value} (isType : graph.IsType value) :
    value.isMissing = false := by
  have isObject := isType.isObject
  cases value <;> first | rfl | cases isObject

theorem Follows.isType {before after : Graph} (follows : before.Follows after)
    (closed : before.Closed) {value : Value} (isType : before.IsType value) :
    after.IsType value := by
  have known := isType.knows
  unfold IsType
  rw [follows.isCallable known, follows.isArrayType closed known]
  exact isType

/-! ## Declared types -/

theorem get?_orElse {α : Type} (entries later : List (String × α)) (name : String) :
    Entries.get? (Entries.orElse entries later) name =
      match Entries.get? entries name with
      | some value => some value
      | none => Entries.get? later name := by
  unfold Entries.orElse
  induction later generalizing entries with
  | nil => cases found : Entries.get? entries name <;> simp [Entries.get?, found]
  | cons pair rest inductionHypothesis =>
      simp only [List.foldl_cons, inductionHypothesis]
      cases present : Entries.has entries pair.1 with
      | true =>
          simp only [if_true]
          cases found : Entries.get? entries name with
          | some value => rfl
          | none =>
              have different : pair.1 ≠ name := by
                rintro rfl
                simp [Entries.has, found] at present
              simp [Entries.get?, different]
      | false =>
          simp only [Bool.false_eq_true, if_false, Entries.get?_append]
          cases Entries.get? entries name with
          | some value => rfl
          | none =>
              by_cases same : pair.1 = name <;> simp [Entries.get?, same]

/-- A field that is found among the declarations was declared on some class. -/
theorem exists_declaration {graph : Graph} {owner : Value} {scope : Scope} {name : String}
    {field : FieldDeclaration}
    (found : Entries.get? (graph.fields owner scope) name = some field) :
    ∃ place, Entries.get? ((graph.declarationsAt place).fields scope) name = some field := by
  unfold fields at found
  suffices general : ∀ (places : List Nat) (merged : List (String × FieldDeclaration)),
      (∀ field, Entries.get? merged name = some field →
        ∃ place, Entries.get? ((graph.declarationsAt place).fields scope) name = some field) →
      ∀ field, Entries.get? (places.foldl (fun merged place =>
        Entries.orElse merged ((graph.declarationsAt place).fields scope)) merged) name =
          some field →
        ∃ place, Entries.get? ((graph.declarationsAt place).fields scope) name = some field from
    general _ [] (by simp) field found
  intro places
  induction places with
  | nil => exact fun merged settled field found => settled field found
  | cons place rest inductionHypothesis =>
      intro merged settled
      apply inductionHypothesis
      intro field found
      rw [get?_orElse] at found
      split at found
      · rename_i earlier
        cases found
        exact settled _ earlier
      · exact ⟨place, found⟩

/-! ## Stores -/

/-- The keys under which types have their names and array types their components. -/
def namingKeys : List Key :=
  [.name "name", .name "componentType"]

theorem Classed.store {graph : Graph} (classed : graph.Classed) {place : Nat} {key : Key}
    {content : Value} (accepted : graph.placement (.object place) key = .slot)
    (known : graph.Knows content) :
    (graph.store (.object place) key content).Classed where
  toClosed := classed.toClosed.store accepted known
  plain := by
    intro other asked property isTypeKey own
    have notLength : asked ≠ .name "length" := by
      rintro rfl
      revert isTypeKey
      decide
    by_cases sameKey : asked = key
    · subst sameKey
      by_cases samePlace : other = place
      · subst samePlace
        obtain ⟨flags, _, stored⟩ := ownAt?_store_self content accepted
        rw [stored] at own
        cases own
        exact ⟨content, flags, rfl⟩
      · rw [ownAt?_store_of_ne_place graph asked content asked samePlace] at own
        exact classed.plain isTypeKey own
    · rw [ownAt?_store_of_ne_key graph place other content sameKey notLength] at own
      exact classed.plain isTypeKey own

/-- A store keeps a graph sound if the types of arrays find their names and components as before,
and no function loses its name. -/
theorem Sound.store_of_kept {graph : Graph} (sound : graph.Sound) {place : Nat} {key : Key}
    {content : Value} (accepted : graph.placement (.object place) key = .slot)
    (known : graph.Knows content)
    (kept : ∀ {value : Value} {asked : Key}, asked ∈ namingKeys →
      graph.isArrayType value = true ∨ value = .object BuiltinClass.arrayType.sharedPlace ∧
        asked = .name "name" →
        (graph.store (.object place) key content).find? value asked = graph.find? value asked)
    (spares : key = .name "name" → graph.isCallable (.object place) = false) :
    (graph.store (.object place) key content).Sound := by
  have follows := follows_store graph place key content
  have names : ∀ value, graph.isArrayType value = true ∨
      value = .object BuiltinClass.arrayType.sharedPlace → graph.NamesArrays value →
        (graph.store (.object place) key content).NamesArrays value := by
    rintro value isType ⟨getter, enumerable, configurable, found, callee⟩
    refine ⟨getter, enumerable, configurable, ?_, ?_⟩
    · rw [kept (by decide) (isType.imp_right fun same => ⟨same, rfl⟩), found]
    · rw [follows.callee? (knows_of_callee? callee), callee]
  have arrayType : ∀ value, (graph.store (.object place) key content).isArrayType value =
      graph.isArrayType value := by
    intro value
    rw [isArrayType, isArrayType, descendsFrom, descendsFrom, ancestors_store]
  have component : ∀ value, graph.isArrayType value = true →
      (graph.store (.object place) key content).member value (.name "componentType") =
        graph.member value (.name "componentType") := by
    intro value isArrayType
    unfold member
    rw [kept (by decide) (Or.inl isArrayType)]
  have callable : ∀ value, (graph.store (.object place) key content).isCallable value = true →
      graph.isCallable value = true := by
    intro value isCallable
    have inside := knows_of_isCallable isCallable
    rw [← follows.isCallable]
    · exact isCallable
    · intro other same
      rw [← size_store graph (.object place) key content]
      exact inside other same
  -- A store changes one slot: each clause holds as before, once what it looks up is known to be
  -- found as before.
  refine ⟨sound.toClassed.store accepted known, ?named, ?sharedName, ?arrayName, ?sharedType,
    ?component, ?arrayTypes, ?declaredType, ?openClass, ?arrayClass⟩
  case named =>
    intro other isCallable
    obtain ⟨found, flags, own, simple, fixed⟩ := sound.named (callable _ isCallable)
    refine ⟨found, flags, ?_, simple, fixed⟩
    by_cases sameKey : key = .name "name"
    · have otherPlace : other ≠ place := by
        rintro rfl
        have noFunction := spares sameKey
        rw [callable _ isCallable] at noFunction
        cases noFunction
      rw [ownAt?_store_of_ne_place graph _ content _ otherPlace, own]
    · rw [ownAt?_store_of_ne_key graph place other content (Ne.symm sameKey) (by decide), own]
  case sharedName => exact names _ (Or.inr rfl) sound.sharedName
  case arrayName =>
    intro value isArrayType
    rw [arrayType] at isArrayType
    exact names value (Or.inl isArrayType) (sound.arrayName isArrayType)
  case sharedType =>
    intro owner
    rw [arrayType]
    exact sound.sharedType owner
  case component =>
    intro value isArrayType
    rw [arrayType] at isArrayType
    rw [component value isArrayType]
    exact follows.isType sound.toClosed (sound.component isArrayType)
  case arrayTypes =>
    intro type other found
    have before : Entries.get? graph.arrayTypes type = some other := found
    obtain ⟨isArrayType, same⟩ := sound.arrayTypes before
    rw [arrayType, component _ isArrayType]
    exact ⟨isArrayType, same⟩
  case declaredType =>
    intro other scope name field found
    have before : Entries.get? ((graph.declarationsAt other).fields scope) name = some field :=
      found
    exact follows.isType sound.toClosed (sound.declaredType before)
  case openClass =>
    rw [follows.callee? (knows_of_callee? sound.openClass)]
    exact sound.openClass
  case arrayClass =>
    rw [follows.isCallable (knows_of_isCallable sound.arrayClass)]
    exact sound.arrayClass

/-- Filling in a value that is there keeps a graph sound.  Under the keys of names this has to
be where nothing is found, so that no type loses its name or its component. -/
theorem Sound.store {graph : Graph} (sound : graph.Sound) {place : Nat} {key : Key}
    {content : Value} (accepted : graph.placement (.object place) key = .slot)
    (known : graph.Knows content)
    (lacks : key ∈ namingKeys → graph.Lacks (.object place) key) :
    (graph.store (.object place) key content).Sound := by
  have spared : ∀ {value : Value} {asked : Key} {property : Property}, asked ∈ namingKeys →
      graph.find? value asked = some property → property.isBlank = false →
        (graph.store (.object place) key content).find? value asked = graph.find? value asked := by
    intro value asked property isNamingKey found notBlank
    by_cases same : asked = key
    · subst same
      exact find?_store_of_not_asked graph asked content
        (sound.not_asked_of_lacks (lacks isNamingKey) found notBlank)
    · refine find?_store_of_ne graph place content value same ?_
      rintro rfl
      revert isNamingKey
      decide
  -- What the names and components of array types are found in is not blank, so it does not stand
  -- where the store finds nothing.
  refine sound.store_of_kept accepted known ?_ ?_
  · rintro value asked isNamingKey isType
    have named : graph.NamesArrays value := by
      rcases isType with isArrayType | ⟨rfl, _⟩
      · exact sound.arrayName isArrayType
      · exact sound.sharedName
    rcases (by simpa [namingKeys] using isNamingKey : asked = _ ∨ asked = _) with rfl | rfl
    · obtain ⟨getter, enumerable, configurable, found, _⟩ := named
      exact spared isNamingKey found rfl
    · have isComponent := sound.component (isType.resolve_right fun shared => by
        exact absurd shared.2 (by decide))
      unfold member at isComponent
      split at isComponent
      · rename_i found
        exact spared isNamingKey found isComponent.isMissing
      · cases isComponent.isObject
  · rintro rfl
    by_contra callable
    rw [Bool.not_eq_false] at callable
    obtain ⟨found, flags, own, _, fixed⟩ := sound.named callable
    have blank := lacks (by decide) (.data found flags) (by simp [find?, own?, own])
    rcases placement_eq_slot accepted with ⟨_, _, same, writable, _⟩ | ⟨absent, _⟩
    · simp only [own?, own, Option.some.injEq, Property.data.injEq] at same
      rw [← same.2, fixed blank] at writable
      cases writable
    · simp [own?, own] at absent

end ObjectPath.Graph
