import ObjectPath.Proofs.Storing
import ObjectPath.Proofs.Defaults
import ObjectPath.Proofs.Keeping

/-!
# New instances that conform

What a factory makes joins the values that are there already.  It conforms to its own
declarations, refers to no old array and inherits from no old object of the set.  The default
factory makes such values if the constructors of classes do: that new records and new arrays
conform depends on what all records and all arrays share, and nobody writes to that.
-/

namespace ObjectPath

open Graph

namespace Graph

/-- A value that a constructor has made, with all new values that it refers to.  They conform and
hold no array twice; the old values that they refer to are among some values around them, and
the old objects that they inherit from were there from the start and are none of those. -/
structure Newborn (start before after : Graph) (steps : List Step) (around fresh : Value → Prop)
    (made : Value) : Prop where
  belongs : fresh made
  new : ∀ place, fresh (.object place) → before.objects.size ≤ place
  conforming : after.Conforming steps around fresh
  unshared : after.Unshared steps fresh
  outer : ∀ value place, fresh value → place ∈ after.ancestors value →
    place < before.objects.size → place < start.objects.size ∧ ¬ around (.object place)
  unheld : after.isArray made = true → ∀ value step, fresh value → value.isMissing = false →
    after.Names steps value step → after.member value step.key ≠ made

end Graph

/-- A value of a type has been made, and the values that are there are typed together with it. -/
def Typing.Provides (typing : Typing) (before : Graph) (steps : List Step) (type made : Value)
    (after : Graph) : Prop :=
  ∃ later, typing.Continues before after later ∧ after.Typed steps (fun _ => False) later ∧
    (made.isMissing = false → later.inside made ∧ later.Suits after type made)

variable {start graph after : Graph} {steps : List Step} {around fresh : Value → Prop}
  {base typing : Typing} {type made : Value}

/-! ## Instances of classes -/

namespace Graph.Newborn

variable (newborn : Newborn start graph after steps around fresh made) (sound : graph.Sound)
  (soundAfter : after.Sound) (extends_ : graph.Extends after)
  (typed : graph.Typed steps (fun _ => False) typing)
  (surround : ∀ value, around value → typing.inside value)
  (outside : ∀ place, typing.inside (.object place) → place < start.objects.size →
    around (.object place))

include newborn sound extends_ typed surround outside

/-- What a constructor has made is provided, with types for the elements of its arrays. -/
theorem provides_typed {items : Nat → Value} (newTyped : after.Typed steps around ⟨fresh, items⟩)
    (takes : after.takes type made = true)
    (suits : ∀ place, made = .object place → after.isArray made = true →
      items place = after.componentType type) : typing.Provides graph steps type made after := by
  refine ⟨_, .join sound extends_ typing newborn.new,
    typed.join sound extends_ newTyped surround newborn.new ?_, fun _ =>
    ⟨Or.inr newborn.belongs, Or.inr ⟨takes, ?_⟩⟩⟩
  · intro value place isFresh above old isInside
    obtain ⟨fromStart, notAround⟩ := newborn.outer value place isFresh above old
    exact notAround (outside place isInside fromStart)
  · rintro place rfl isArray
    have new : (typing.join graph.objects.size ⟨fresh, items⟩).items place = items place :=
      if_neg (Nat.not_lt.2 (newborn.new place newborn.belongs))
    rw [new]
    exact suits place rfl isArray

include soundAfter

/-- An instance of a class that its constructor has made is provided. -/
theorem provides (noArrayType : after.isArrayType type = false)
    (takes : after.takes type made = true) : typing.Provides graph steps type made after := by
  refine newborn.provides_typed sound extends_ typed surround outside
    (newborn.conforming.typed soundAfter newborn.unshared) takes ?_
  rintro place rfl isArray
  rw [componentType, noArrayType, if_neg Bool.false_ne_true]
  refine heldItems_of_not_held fun type held => ?_
  obtain ⟨holder, step, isFresh, present, names, content⟩ := held.slot
  exact newborn.unheld isArray holder step isFresh present names content

end Graph.Newborn

/-! ## Objects that are made again -/

namespace Graph

/-- Lookups on an object that is not in a set, and inherits from none in it, stay as they are. -/
theorem Undisturbed.find? (undisturbed : start.Undisturbed around graph) (closed : start.Closed)
    {place : Nat} (known : place < start.objects.size)
    (outside : ∀ other ∈ place :: start.ancestors (.object place), ¬ around (.object other))
    (key : Key) : graph.find? (.object place) key = start.find? (.object place) key := by
  have same : ∀ other ∈ place :: start.ancestors (.object place),
      graph.ownAt? other key = start.ownAt? other key := by
    intro other which
    have inside : other < start.objects.size := by
      rcases List.mem_cons.1 which with rfl | above
      · exact known
      · exact closed.ancestors_lt _ other above
    rw [ownAt?, ownAt?, undisturbed.untouched inside (outside other which)]
  have inherited : graph.inherited? (.object place) key = start.inherited? (.object place) key := by
    rw [inherited?, inherited?, undisturbed.same.ancestors closed (knows_object.2 known)]
    exact findSome?_eq_of_upTo _ fun other above =>
      same other (List.mem_cons_of_mem place (Closed.mem_upTo above))
  simp only [Graph.find?, own?, same place (List.mem_cons_self ..), inherited]

/-- An object of simple values with a parent that is there. -/
structure Bare (graph : Graph) (object : Object) (parent : Nat) : Prop where
  isParent : object.parent = some parent
  inside : parent < graph.objects.size
  simple : ∀ {key : Key} {property : Property}, object.own? key = some property →
    ∃ content flags, property = .data content flags ∧ content.isObject = false

theorem Bare.later {object : Object} {parent : Nat} (bare : start.Bare object parent)
    (same : start.SameTypes graph) : graph.Bare object parent where
  isParent := bare.isParent
  inside := Nat.lt_of_lt_of_le bare.inside same.size
  simple := bare.simple

/-- A new object, and nothing else, is newborn. -/
def NewbornAlone (start graph : Graph) (steps : List Step) (around : Value → Prop)
    (object : Object) : Prop :=
  Newborn start graph (graph.adding object) steps around (· = .object graph.objects.size)
    (.object graph.objects.size)

theorem arrayLength?_adding (graph : Graph) (object : Object) :
    (graph.adding object).arrayLength? (.object graph.objects.size) =
      match object.body with
      | .items length _ => some length
      | _ => none := by
  obtain ⟨parent, body, slots, extensible⟩ := object
  simp only [arrayLength?, objectOf?, Value.place?, Option.bind_some, object?_adding_self]
  cases body <;> rfl

section Again

variable {object : Object} {parent : Nat} (bare : start.Bare object parent)
  (newborn : start.NewbornAlone start steps around object) (soundStart : start.Sound)
  (sound : graph.Sound) (undisturbed : start.Undisturbed around graph)

include bare newborn soundStart

/-- What a newborn object inherits from is not among the values around it. -/
theorem NewbornAlone.outside {place : Nat} (above : place ∈ parent :: start.ancestors (.object parent)) :
    place < start.objects.size ∧ ¬ around (.object place) := by
  have closed := soundStart.toClosed
  have inside : place < start.objects.size := by
    rcases List.mem_cons.1 above with rfl | above
    · exact bare.inside
    · exact closed.ancestors_lt _ place above
  refine newborn.outer _ place rfl ?_ inside
  rwa [closed.ancestors_adding bare.isParent bare.inside]

include sound undisturbed

omit newborn in
/-- An object that is made again inherits from the same objects. -/
theorem Bare.ancestors :
    (graph.adding object).ancestors (.object graph.objects.size) =
      parent :: start.ancestors (.object parent) := by
  rw [sound.toClosed.ancestors_adding bare.isParent (bare.later undisturbed.same).inside,
    undisturbed.same.ancestors soundStart.toClosed (knows_object.2 bare.inside)]

/-- An object that is made again finds the same. -/
theorem NewbornAlone.find? (key : Key) :
    (graph.adding object).find? (.object graph.objects.size) key =
      (start.adding object).find? (.object start.objects.size) key := by
  have closed := soundStart.toClosed
  cases isOwn : object.own? key with
  | some property => rw [find?_adding_own graph isOwn, find?_adding_own start isOwn]
  | none =>
      rw [sound.toClosed.find?_adding bare.isParent (bare.later undisturbed.same).inside isOwn,
        closed.find?_adding bare.isParent bare.inside isOwn,
        undisturbed.find? closed bare.inside fun other which =>
          (newborn.outside bare soundStart which).2]

include soundStart sound undisturbed in
omit bare newborn in
/-- What was there from the start has the same types once the object is made again. -/
theorem Undisturbed.adding (object : Object) : start.SameTypes (graph.adding object) :=
  undisturbed.same.trans soundStart.toClosed ((extends_adding graph object).sameTypes sound)

theorem NewbornAlone.look? (key : Key) :
    (graph.adding object).look? (.object graph.objects.size) key =
      (start.adding object).look? (.object start.objects.size) key := by
  rw [Graph.look?, newborn.find? bare soundStart sound undisturbed, Graph.look?]

theorem NewbornAlone.member (key : Key) :
    (graph.adding object).member (.object graph.objects.size) key =
      (start.adding object).member (.object start.objects.size) key := by
  rw [Graph.member, newborn.find? bare soundStart sound undisturbed, Graph.member]

omit newborn sound undisturbed in
/-- Whatever the object finds was there from the start. -/
theorem Bare.member_known (key : Key) :
    start.Knows ((start.adding object).member (.object start.objects.size) key) := by
  have closed := soundStart.toClosed
  cases isOwn : object.own? key with
  | some property =>
      obtain ⟨content, flags, rfl, simple⟩ := bare.simple isOwn
      rw [Graph.member, find?_adding_own start isOwn]
      exact knows_of_isObject_eq_false simple
  | none =>
      rw [Graph.member, closed.find?_adding bare.isParent bare.inside isOwn]
      exact closed.member_known (.object parent) key

/-- An object that is made again is of the same class. -/
theorem NewbornAlone.classOf :
    start.Knows ((start.adding object).classOf (.object start.objects.size)) ∧
      (graph.adding object).classOf (.object graph.objects.size) =
        (start.adding object).classOf (.object start.objects.size) := by
  have closed := soundStart.toClosed
  have known := bare.member_known soundStart (.name "constructor")
  have sameFirst := (extends_adding start object).sameTypes soundStart
  have sameLater := undisturbed.adding soundStart sound object
  constructor
  · dsimp only [Graph.classOf]
    split
    · exact knows_object.2 (closed.classes .array)
    · split
      · exact known
      · exact knows_object.2 (closed.classes .object)
  · simp only [Graph.classOf, newborn.member bare soundStart sound undisturbed, Graph.isArray,
      arrayLength?_adding, sameLater.isCallable known, sameFirst.isCallable known,
      sameLater.member_class closed known (.name "prototype") (by decide),
      sameFirst.member_class closed known (.name "prototype") (by decide)]

theorem NewbornAlone.declaration? (name : String) :
    (graph.adding object).declaration? (.object graph.objects.size) name =
      (start.adding object).declaration? (.object start.objects.size) name := by
  obtain ⟨known, sameClass⟩ := newborn.classOf bare soundStart sound undisturbed
  have closed := soundStart.toClosed
  rw [Graph.declaration?, Graph.declaration?, sameClass,
    (undisturbed.adding soundStart sound object).fields closed known,
    ((extends_adding start object).sameTypes soundStart).fields closed known]

theorem NewbornAlone.names (step : Step) :
    (graph.adding object).Names steps (.object graph.objects.size) step ↔
      (start.adding object).Names steps (.object start.objects.size) step := by
  cases step with
  | field name => rw [Names, Names, newborn.declaration? bare soundStart sound undisturbed]
  | element index =>
      rw [Names, Names, Graph.isArray, Graph.isArray, arrayLength?_adding, arrayLength?_adding]

/-- What is found on the object is older than the object, so it is something around it. -/
theorem NewbornAlone.surrounded {key : Key}
    (reads : (graph.adding object).Reads steps (.object graph.objects.size) key) :
    ∃ content, (start.adding object).look? (.object start.objects.size) key = some content ∧
      (graph.adding object).look? (.object graph.objects.size) key = some content ∧
      start.Knows content ∧ around content ∧ (graph.adding object).isArray content = false := by
  have readsFirst : (start.adding object).Reads steps (.object start.objects.size) key :=
    reads.imp_right fun ⟨step, names, isKey⟩ =>
      ⟨step, (newborn.names bare soundStart sound undisturbed step).1 names, isKey⟩
  obtain ⟨content, looked, isInside⟩ := newborn.conforming.looked rfl rfl readsFirst
  have known := bare.member_known soundStart key
  rw [member_of_look? looked] at known
  rcases isInside with rfl | ⟨isAround, noArray⟩
  · exact absurd (knows_object.1 known) (Nat.lt_irrefl _)
  · refine ⟨content, looked,
      (newborn.look? bare soundStart sound undisturbed key).trans looked, known, isAround, ?_⟩
    rwa [(undisturbed.adding soundStart sound object).isArray known,
      ← ((extends_adding start object).sameTypes soundStart).isArray known]

/-- An object that is newborn at the start is newborn whenever it is made again. -/
theorem NewbornAlone.again : start.NewbornAlone graph steps around object := by
  have closed := soundStart.toClosed
  have sameFirst := (extends_adding start object).sameTypes soundStart
  have sameLater := undisturbed.adding soundStart sound object
  have ancestors := bare.ancestors soundStart sound undisturbed
  -- What the new object has, it has from its surroundings, in which there is no array to share.
  have slotIsOld : ∀ {step : Step},
      (graph.adding object).Names steps (.object graph.objects.size) step →
      (graph.adding object).isArray
        ((graph.adding object).member (.object graph.objects.size) step.key) = false := by
    intro step names
    obtain ⟨content, _, looked, _, _, noArray⟩ :=
      newborn.surrounded bare soundStart sound undisturbed (reads_of_names names)
    rwa [member_of_look? looked]
  refine ⟨rfl, ?_, ⟨?_, ?_, ?_, ?_⟩, ⟨?_, ?_, ?_⟩, ?_, ?_⟩
  · rintro place ⟨⟩
    exact Nat.le_refl _
  · rintro value rfl
    exact knows_object.2 (by rw [size_adding]; exact Nat.lt_succ_self _)
  · rintro value other rfl like
    exact like.eq_of_object rfl
  · rintro value key rfl _ reads
    obtain ⟨content, _, looked, _, isAround, noArray⟩ :=
      newborn.surrounded bare soundStart sound undisturbed reads
    exact ⟨content, looked, Or.inr ⟨isAround, noArray⟩⟩
  · rintro value name declaration rfl _ declared
    have names : (graph.adding object).Names steps (.object graph.objects.size) (.field name) :=
      Or.inr (by rw [declared]; rfl)
    obtain ⟨content, lookedFirst, looked, known, _, noArray⟩ :=
      newborn.surrounded bare soundStart sound undisturbed (reads_of_names names)
    rw [newborn.declaration? bare soundStart sound undisturbed] at declared
    obtain ⟨place, entered⟩ := exists_declaration declared
    have knownType : start.Knows declaration.type := (soundStart.declaredType entered).knows
    have isFirst : (start.adding object).member (.object start.objects.size) (.ofText name) =
        content := member_of_look? lookedFirst
    have isContent : (graph.adding object).member (.object graph.objects.size) (.ofText name) =
        content := member_of_look? looked
    have conforms := newborn.conforming.fields rfl rfl declared
    rw [isFirst] at conforms
    rw [isContent]
    cases present : content.isMissing with
    | true => exact .of_isMissing present
    | false =>
        refine .of_takes ?_ noArray
        rw [sameLater.takes closed knownType known, ← sameFirst.takes closed knownType known]
        exact conforms.takes present
  · rintro value other array step step' rfl rfl _ _ names _ rfl _ isArray
    rw [slotIsOld names] at isArray
    cases isArray
  · rintro value place rfl isPlace above
    cases isPlace
    rw [ancestors] at above
    exact absurd (Nat.lt_of_lt_of_le (newborn.outside bare soundStart above).1
      undisturbed.same.size) (Nat.lt_irrefl _)
  · rintro value place rfl isArray above index
    rw [ancestors] at above
    obtain ⟨inside, outside⟩ := newborn.outside bare soundStart above
    rw [Graph.isArray, arrayLength?_adding, ← start.arrayLength?_adding] at isArray
    rw [(extends_adding graph _).ownAt? (Nat.lt_of_lt_of_le inside undisturbed.same.size), ownAt?,
      undisturbed.untouched inside outside]
    have empty := newborn.unshared.elements rfl isArray
      (bare.ancestors soundStart soundStart (.refl start around) ▸ above) index
    rwa [(extends_adding start _).ownAt? inside] at empty
  · rintro value place rfl above _
    rw [ancestors] at above
    exact newborn.outside bare soundStart above
  · rintro isArray value step rfl _ names isMade
    rw [← isMade, slotIsOld names] at isArray
    cases isArray

end Again

/-! ## New arrays -/

section Arrays

variable {object : Object} (newborn : start.NewbornAlone graph steps around object)
  (noElements : ∀ index, object.own? (.ofIndex index) = none)
  (isArray : (graph.adding object).isArray (.object graph.objects.size) = true)

include newborn noElements isArray

/-- A newborn array has no elements. -/
theorem NewbornAlone.element (index : Nat) :
    (graph.adding object).member (.object graph.objects.size) (.ofIndex index) = .undefined := by
  have nothing : (graph.adding object).find? (.object graph.objects.size) (.ofIndex index) =
      none := by
    rw [Graph.find?, own?, ownAt?_adding_self, noElements]
    exact List.findSome?_eq_none_iff.2 fun place above =>
      newborn.unshared.elements rfl isArray above index
  rw [Graph.member, nothing]

/-- A newborn array is typed, whatever its elements are to be. -/
theorem NewbornAlone.typed {items : Value} (known : (graph.adding object).Knows items) :
    (graph.adding object).Typed steps around ⟨(· = .object graph.objects.size), fun _ => items⟩ where
  known := newborn.conforming.known
  like := newborn.conforming.like
  looked := newborn.conforming.looked
  heirs := newborn.unshared.heirs
  elements := newborn.unshared.elements
  items := fun _ => known
  suits := by
    rintro value step rfl _ names
    cases step with
    | element index =>
        refine .of_isMissing ?_
        rw [Step.key, newborn.element noElements isArray]
        rfl
    | field name =>
        -- What a field holds is no array, since the only new one is held by no slot.
        have noArray : (graph.adding object).isArray ((graph.adding object).member
            (.object graph.objects.size) (Step.field name).key) = false := by
          obtain ⟨content, looked, isMade | ⟨_, noArray⟩⟩ :=
            newborn.conforming.looked rfl rfl (reads_of_names names)
          · exact absurd ((member_of_look? looked).trans isMade)
              (newborn.unheld isArray _ _ rfl rfl names)
          · rwa [member_of_look? looked]
        rw [Typing.stepType, fieldType]
        split
        · rename_i declaration declared
          exact .of_conforms (newborn.conforming.fields rfl rfl declared) noArray
        · refine Or.inr ⟨if_pos rfl, fun _ _ isArray => ?_⟩
          rw [noArray] at isArray
          cases isArray

end Arrays

end Graph

/-! ## The default factory -/

/-- A simple value is provided as it is. -/
theorem Typing.provides_simple {value : Value}
    (typed : graph.Typed steps (fun _ => False) typing) (isInside : typing.inside value)
    (simple : value.isObject = false) (takes : graph.takes type value = true) :
    typing.Provides graph steps type value graph := by
  refine ⟨typing, .refl graph typing, typed, fun _ => ⟨isInside, Or.inr ⟨takes, ?_⟩⟩⟩
  rintro place rfl
  cases simple

/-- A graph in which new records, new arrays and the zero values conform among some values. -/
structure Graph.Welcomes (graph : Graph) (steps : List Step) (around : Value → Prop) : Prop where
  record : graph.NewbornAlone graph steps around (blankObject .object .plain)
  array : graph.NewbornAlone graph steps around (blankObject .array (.items 0 true))
  zeros : around (.number (.ofNat 0)) ∧ around (.boolean false) ∧ around (.string "")

namespace Graph

theorem own?_emptyArray_ofIndex (index : Nat) :
    (blankObject .array (.items 0 true)).own? (.ofIndex index) = none := by
  cases isOwn : (blankObject .array (.items 0 true)).own? (.ofIndex index) with
  | none => rfl
  | some property =>
      exact absurd (Scene.own?_emptyArray _ _ isOwn).1
        (Key.ofIndex_ne_name index (show 'l' ∈ "length".toList by decide) (by decide))

theorem isArray_emptyArray (graph : Graph) :
    (graph.adding (blankObject .array (.items 0 true))).isArray (.object graph.objects.size) =
      true := by
  rw [Graph.isArray, arrayLength?_adding]
  rfl

theorem Closed.bare_emptyArray (closed : start.Closed) :
    start.Bare (blankObject .array (.items 0 true)) BuiltinClass.array.sharedPlace where
  isParent := rfl
  inside := closed.shared .array
  simple := by
    intro key property isOwn
    obtain ⟨_, number, flags, rfl⟩ := Scene.own?_emptyArray key property isOwn
    exact ⟨.number number, flags, rfl, rfl⟩

theorem Closed.bare_emptyRecord (closed : start.Closed) :
    start.Bare (blankObject .object .plain) BuiltinClass.object.sharedPlace where
  isParent := rfl
  inside := closed.shared .object
  simple := by rintro key property ⟨⟩

/-- An element that a new array does not have is among the values around it. -/
theorem Welcomes.nothing (welcomes : start.Welcomes steps around) : around .undefined := by
  have isArray := start.isArray_emptyArray
  have names : (start.adding (blankObject .array (.items 0 true))).Names steps
      (.object start.objects.size) (.element 0) := isArray
  have absent := welcomes.array.element own?_emptyArray_ofIndex isArray 0
  obtain ⟨content, looked, isInside⟩ :=
    welcomes.array.conforming.looked rfl rfl (reads_of_names names)
  have isContent : (start.adding (blankObject .array (.items 0 true))).member
      (.object start.objects.size) (.ofIndex 0) = content := member_of_look? looked
  rw [← isContent, absent] at isInside
  rcases isInside with ⟨⟨⟩⟩ | ⟨isAround, _⟩
  exact isAround

end Graph

namespace Scene

variable {scene : Scene}

/-- The constructors of the classes that the default factory has no value of its own for make new
instances that conform, or fail, as long as nobody has written to what they inherit from. -/
def Bears (scene : Scene) (steps : List Step) (around : Value → Prop) : Prop :=
  ∀ {graph : Graph} {type : Value}, scene.Holds graph → scene.start.Undisturbed around graph →
    graph.Requested type → type ≠ openType → graph.isArrayType type = false →
      Entries.get? (ProducerTable.standard .standard).producers type = none →
        Ensures (Run.newInstance type []) graph
          (fun made after => after.takes type made = true ∧
            ∃ fresh, scene.start.Newborn graph after steps around fresh made)
          fun _ _ => True

/-- The default factory has the zero values of the classes that stand for primitives. -/
theorem not_primitive_of_producers
    (found : Entries.get? (ProducerTable.standard .standard).producers type = none) :
    type ∉ primitiveTypes := by
  intro isPrimitive
  simp only [primitiveTypes, List.mem_cons, List.not_mem_nil, or_false] at isPrimitive
  rcases isPrimitive with rfl | rfl | rfl <;> cases found

/-- The default factory provides values of the types that it is asked for. -/
theorem provides_standard (holds : scene.Holds graph) (soundStart : scene.start.Sound)
    (constructs : scene.Constructs) (bears : scene.Bears steps base.inside)
    (welcomes : scene.start.Welcomes steps base.inside)
    (typed : graph.Typed steps (fun _ => False) typing)
    (continues : base.Continues scene.start graph typing) (requested : graph.Requested type)
    (arguments : Option ArgumentMap) :
    Ensures (standardFactory type arguments) graph
      (fun made after => typing.Provides graph steps type made after) fun _ _ => True := by
  have sound := holds.sound
  have closedStart := soundStart.toClosed
  have surround : ∀ value, base.inside value → typing.inside value := fun _ => continues.inside
  have outside : ∀ place, typing.inside (.object place) → place < scene.start.objects.size →
      base.inside (.object place) := fun _ => continues.old
  unfold standardFactory ProducerTable.supply
  -- The factory has its own value for simple types, makes an empty array for array types, and asks
  -- the constructor for all others.
  cases found : Entries.get? (ProducerTable.standard .standard).producers type with
  | some producer =>
      change Ensures (producer.run arguments) graph _ _
      obtain ⟨zero, no, empty⟩ := welcomes.zeros
      rcases producers_standard found with ⟨rfl, rfl⟩ | ⟨rfl, rfl⟩ | ⟨rfl, rfl⟩ <;>
        simp only [Producer.run, Run.build, Template.build]
      · exact typing.provides_simple typed (continues.inside zero) rfl rfl
      · exact typing.provides_simple typed (continues.inside no) rfl rfl
      · exact typing.provides_simple typed (continues.inside empty) rfl rfl
  | none =>
      refine Ensures.get_bind ?_
      cases isArrayType : graph.isArrayType type with
      | true =>
          rw [if_pos rfl]
          have extends_ := extends_adding graph (blankObject .array (.items 0 true))
          have same := extends_.sameTypes sound
          have known := knows_of_isArrayType isArrayType
          have newborn := welcomes.array.again closedStart.bare_emptyArray soundStart sound
            continues.toUndisturbed
          have takes : (graph.adding (blankObject .array (.items 0 true))).takes type
              (.object graph.objects.size) = true := by
            unfold takes
            rw [if_neg (not_primitive_of_producers found), same.isArrayType sound.toClosed known,
              isArrayType, if_pos rfl, isArray_emptyArray, ite_self]
          have provided : typing.Provides graph steps type (.object graph.objects.size)
              (graph.adding (blankObject .array (.items 0 true))) := by
            refine newborn.provides_typed sound extends_ typed surround outside
              (newborn.typed own?_emptyArray_ofIndex graph.isArray_emptyArray
                (same.knows (sound.componentType_known type))) takes fun _ _ _ => ?_
            exact (same.componentType sound.toClosed known).symm
          exact provided
      | false =>
          rw [if_neg Bool.false_ne_true]
          by_cases isOpen : type = openType
          · subst isOpen
            have soundAfter : (graph.adding (blankObject .object .plain)).Sound :=
              sound.adding_blank (by decide) (fun _ => by rintro ⟨⟩) fun _ _ => by rintro ⟨⟩
            exact Ensures.of_ok (newInstance_openType sound.openClass)
              (Newborn.provides (welcomes.record.again closedStart.bare_emptyRecord soundStart sound
                continues.toUndisturbed) sound soundAfter (extends_adding graph _) typed surround
                outside (soundAfter.isArrayType_of_isCallable soundAfter.openType) (if_pos rfl))
          · refine (Ensures.and (constructs holds requested isOpen isArrayType found)
              (bears holds continues.toUndisturbed requested isOpen isArrayType found)).mono ?_
              fun _ _ _ => trivial
            rintro made after ⟨made_, takes, fresh, newborn⟩
            refine newborn.provides sound made_.sound made_.extends_ typed surround outside ?_ takes
            rw [made_.extends_.follows.isArrayType sound.toClosed (sound.isType requested).knows,
              isArrayType]

end Scene

end ObjectPath
