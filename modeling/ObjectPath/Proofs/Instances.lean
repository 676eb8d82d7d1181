import ObjectPath.Proofs.Newborn

/-!
# Classes with empty fields

The constructor of a class without a parent that only gives its instances slots without values
makes one new object and touches no other one.  So if an instance that is made at the start
conforms, every one does that is made while an evaluation goes on.
-/

namespace ObjectPath

open Graph

/-! ## Constructors -/

/-- Whether a constructor leaves a slot empty. -/
def FieldSetup.isEmpty (field : FieldSetup) : Bool :=
  field.position.isNone && match field.initial with
    | .null => true
    | _ => false

/-- Whether a constructor only makes empty slots. -/
def Setup.isEmpty (setup : Setup) : Bool :=
  setup.failure.isNone && setup.requirement.isNone && setup.fields.all FieldSetup.isEmpty

/-- Some slots with the empty ones that a constructor makes. -/
def emptySlots (slots : List (Key × Property)) : List FieldSetup → List (Key × Property)
  | [] => slots
  | field :: rest => emptySlots (Entries.put slots (.ofText field.name) (.data .null .plain)) rest

/-- What a constructor makes that only makes empty slots. -/
def Setup.blank (setup : Setup) (shared : Nat) : Object :=
  ⟨some shared, .plain, emptySlots [] setup.fields, true⟩

/-- Slots without values. -/
def AllEmpty (slots : List (Key × Property)) : Prop :=
  ∀ {key : Key} {property : Property}, Entries.get? slots key = some property →
    property = .data .null .plain

theorem AllEmpty.put {slots : List (Key × Property)} (empty : AllEmpty slots) (key : Key) :
    AllEmpty (Entries.put slots key (.data .null .plain)) := by
  intro other property found
  rw [Entries.get?_put] at found
  split at found
  · exact (Option.some.inj found).symm
  · exact empty found

theorem AllEmpty.emptySlots {slots : List (Key × Property)} (empty : AllEmpty slots)
    (fields : List FieldSetup) : AllEmpty (emptySlots slots fields) := by
  induction fields generalizing slots with
  | nil => exact empty
  | cons field rest inductionHypothesis => exact inductionHypothesis (empty.put _)

namespace Graph

theorem enter_adding (graph : Graph) (object : Object) (key : Key) (property : Property) :
    (graph.adding object).enter (.object graph.objects.size) key property =
      graph.adding (object.enter key property) := by
  have objects : (graph.objects.push object).modify graph.objects.size (·.enter key property) =
      graph.objects.push (object.enter key property) := by
    refine Array.ext_getElem? fun index => ?_
    rw [Array.getElem?_modify, Array.getElem?_push, Array.getElem?_push]
    by_cases isNew : index = graph.objects.size
    · simp [isNew]
    · simp [isNew, Ne.symm isNew]
  unfold enter modifyTarget modifyObject adding allocate
  dsimp only
  rw [objects]

end Graph

variable {graph : Graph}

/-- An empty slot can be made on an object with none but empty slots. -/
theorem defineWith_blank (invoke : Invoker) (shared : Nat) {slots : List (Key × Property)}
    (empty : AllEmpty slots) (key : Key) :
    Run.defineWith invoke (.object graph.objects.size) key .null
        (graph.adding ⟨some shared, .plain, slots, true⟩) =
      .ok () (graph.adding ⟨some shared, .plain, Entries.put slots key (.data .null .plain), true⟩) := by
  have notLength : (graph.adding ⟨some shared, .plain, slots, true⟩).isLength
      (.object graph.objects.size) key = false := by
    rw [isLength, isArray, arrayLength?_adding]
    rfl
  have own : (graph.adding ⟨some shared, .plain, slots, true⟩).own? (.object graph.objects.size) key =
      Entries.get? slots key := ownAt?_adding_self graph _ key
  have definable : (graph.adding ⟨some shared, .plain, slots, true⟩).definable
      (.object graph.objects.size) key = .definable := by
    unfold Graph.definable
    rw [own]
    cases found : Entries.get? slots key with
    | none =>
        have extensible : (graph.adding ⟨some shared, .plain, slots, true⟩).isExtensible
            (.object graph.objects.size) = true := by
          simp only [isExtensible, objectOf?, Value.place?, Option.bind_some, object?_adding_self,
            Option.map_some, Option.getD_some]
        exact if_pos extensible
    | some property =>
        rw [empty found]
        rfl
  unfold Run.defineWith
  refine bind_get.trans ?_
  rw [notLength, if_neg Bool.false_ne_true]
  unfold Run.defineMember
  refine bind_get.trans ?_
  rw [show (Value.object graph.objects.size).isObject = true from rfl, if_pos rfl, definable]
  change EStateM.Result.ok () (Graph.enter _ _ _ _) = _
  rw [enter_adding]
  rfl

/-- A constructor that only makes empty slots runs nothing else. -/
theorem setUpFields_of_isEmpty (invoke : Invoker) (shared : Nat) {slots : List (Key × Property)}
    (empty : AllEmpty slots) {fields : List FieldSetup}
    (allEmpty : fields.all FieldSetup.isEmpty = true) :
    setUpFields invoke (.object graph.objects.size) [] fields
        (graph.adding ⟨some shared, .plain, slots, true⟩) =
      .ok () (graph.adding ⟨some shared, .plain, emptySlots slots fields, true⟩) := by
  induction fields generalizing slots with
  | nil => rfl
  | cons field rest inductionHypothesis =>
      obtain ⟨isEmpty, restEmpty⟩ := Bool.and_eq_true_iff.1 allEmpty
      obtain ⟨name, position, initial⟩ := field
      obtain ⟨noPosition, isNull⟩ := Bool.and_eq_true_iff.1 isEmpty
      cases Option.isNone_iff_eq_none.1 noPosition
      cases initial with
      | null =>
          have defined : Run.defineWith invoke (.object graph.objects.size) (.ofText name) .null
              (graph.adding ⟨some shared, .plain, slots, true⟩) =
                .ok () (graph.adding ⟨some shared, .plain,
                  Entries.put slots (.ofText name) (.data .null .plain), true⟩) :=
            defineWith_blank invoke shared empty (.ofText name)
          have built : Template.null.build invoke (graph.adding ⟨some shared, .plain, slots, true⟩) =
              .ok .null (graph.adding ⟨some shared, .plain, slots, true⟩) := by
            rw [Template.build]
            rfl
          unfold setUpFields
          dsimp only
          rw [if_pos (beq_self_eq_true Value.undefined)]
          refine (bind_of_ok built).trans ((bind_of_ok defined).trans ?_)
          exact inductionHypothesis (empty.put (.ofText name)) restEmpty
      | _ => cases isNull

/-- An instance of a class whose constructor only makes empty slots is a new object. -/
theorem newInstance_of_isEmpty (classed : graph.Classed) {owner : Value} {setup : Setup}
    (callee : graph.callee? owner = some (.definedClass false setup))
    (isEmpty : setup.isEmpty = true) {shared : Nat}
    (isShared : graph.member owner (.name "prototype") = .object shared) :
    Run.newInstance owner [] graph =
      .ok (.object graph.objects.size) (graph.adding (setup.blank shared)) := by
  simp only [Setup.isEmpty, Bool.and_eq_true, Option.isNone_iff_eq_none] at isEmpty
  obtain ⟨⟨noFailure, noRequirement⟩, allEmpty⟩ := isEmpty
  have created : Run.create owner [] graph =
      .ok (.object graph.objects.size) (graph.adding (setup.blank shared)) := by
    change createInstance (performWithin 3999) owner [] owner graph = _
    unfold createInstance
    refine bind_get.trans ?_
    rw [callee]
    have looked := Run.readWith_of_look? (performWithin 3999)
      (classed.look? owner (.name "prototype") (by decide))
    rw [isShared] at looked
    have made : Run.newInstanceOf (performWithin 3999) owner .object .plain [] graph =
        .ok (.object graph.objects.size) (graph.adding ⟨some shared, .plain, [], true⟩) := by
      have found : Run.sharedPlaceOf (performWithin 3999) owner .object graph = .ok shared graph :=
        bind_of_ok looked
      exact bind_of_ok found
    have noSlots : AllEmpty [] := by rintro key property ⟨⟩
    refine (bind_of_ok made).trans ?_
    have done : setUp (performWithin 3999) (.object graph.objects.size) [] setup
        (graph.adding ⟨some shared, .plain, [], true⟩) =
          .ok () (graph.adding (setup.blank shared)) := by
      unfold setUp
      rw [noFailure, noRequirement]
      exact setUpFields_of_isEmpty (performWithin 3999) shared noSlots allEmpty
    exact bind_of_ok done
  exact tryCatch_of_ok created

/-! ## Instances -/

/-- What such a constructor makes has slots without values, and nothing else. -/
theorem Setup.own?_blank (setup : Setup) (shared : Nat) {key : Key} {property : Property}
    (isOwn : (setup.blank shared).own? key = some property) : property = .data .null .plain := by
  have noSlots : AllEmpty [] := by rintro key property ⟨⟩
  exact noSlots.emptySlots setup.fields isOwn

namespace Graph

/-- A class without a parent whose constructor only makes empty slots. -/
structure EmptyClass (graph : Graph) (owner : Value) (setup : Setup) (shared : Nat) : Prop where
  callee : graph.callee? owner = some (.definedClass false setup)
  isEmpty : setup.isEmpty = true
  isShared : graph.member owner (.name "prototype") = .object shared
  noArrayType : graph.isArrayType (.object shared) = false
  notShared : shared ≠ BuiltinClass.arrayType.sharedPlace

namespace EmptyClass

variable {start : Graph} {guarded : List Key} {owner : Value} {setup : Setup} {shared : Nat}

theorem inside (empty : graph.EmptyClass owner setup shared) (closed : graph.Closed) :
    shared < graph.objects.size :=
  knows_object.1 (empty.isShared ▸ closed.member_known owner (.name "prototype"))

theorem later (empty : start.EmptyClass owner setup shared) (closed : start.Closed)
    (steady : start.Steady guarded graph) : graph.EmptyClass owner setup shared where
  callee := by
    rw [steady.callee? (knows_of_callee? empty.callee)]
    exact empty.callee
  isEmpty := empty.isEmpty
  isShared := by
    rw [steady.member_class closed (knows_of_callee? empty.callee) (.name "prototype") (by decide)]
    exact empty.isShared
  noArrayType := by
    rw [steady.isArrayType closed (knows_object.2 (empty.inside closed))]
    exact empty.noArrayType
  notShared := empty.notShared

theorem bare (empty : graph.EmptyClass owner setup shared) (closed : graph.Closed) :
    graph.Bare (setup.blank shared) shared where
  isParent := rfl
  inside := empty.inside closed
  simple := fun isOwn => ⟨.null, .plain, setup.own?_blank shared isOwn, rfl⟩

theorem ancestors (empty : graph.EmptyClass owner setup shared) (closed : graph.Closed) :
    (graph.adding (setup.blank shared)).ancestors (.object graph.objects.size) =
      shared :: graph.ancestors (.object shared) :=
  closed.ancestors_adding rfl (empty.inside closed)

/-- Instances are no types of arrays. -/
theorem isArrayType_blank (empty : graph.EmptyClass owner setup shared) (closed : graph.Closed) :
    (graph.adding (setup.blank shared)).isArrayType (.object graph.objects.size) = false := by
  have above := empty.noArrayType
  simp only [isArrayType, descendsFrom, Value.isObject, Value.place?, Option.isSome_some,
    Bool.true_and] at above ⊢
  rw [empty.ancestors closed, List.contains_cons, above, Bool.or_false, beq_eq_false_iff_ne]
  exact empty.notShared.symm

/-- Instances keep a graph sound. -/
theorem sound (empty : graph.EmptyClass owner setup shared) (sound : graph.Sound) :
    (graph.adding (setup.blank shared)).Sound := by
  refine sound.adding ⟨?_, ?_⟩ ?_ (fun _ => by rintro ⟨⟩) fun isArrayType => ?_
  · rintro place ⟨⟩
    exact empty.inside sound.toClosed
  · intro key content flags isOwn
    cases setup.own?_blank shared isOwn
    exact knows_of_isObject_eq_false rfl
  · intro key _ property isOwn
    exact ⟨.null, .plain, setup.own?_blank shared isOwn⟩
  · rw [empty.isArrayType_blank sound.toClosed] at isArrayType
    cases isArrayType

/-- An instance is of its class. -/
theorem takes (empty : graph.EmptyClass owner setup shared) (sound : graph.Sound)
    (notOpen : owner ≠ ObjectPath.openType) (notPrimitive : owner ∉ primitiveTypes) :
    (graph.adding (setup.blank shared)).takes owner (.object graph.objects.size) = true := by
  have closed := sound.toClosed
  have same := (extends_adding graph (setup.blank shared)).sameTypes sound
  have known := knows_of_callee? empty.callee
  have callable : graph.isCallable owner = true := by
    rw [isCallable, empty.callee]
    rfl
  unfold Graph.takes
  rw [if_neg notOpen, if_neg notPrimitive, same.isArrayType closed known,
    sound.isArrayType_of_isCallable callable, if_neg Bool.false_ne_true, isInstance,
    same.member_class closed known (.name "prototype") (by decide), empty.isShared]
  simp only [descendsFrom, Value.isObject, Value.place?, Option.isSome_some, Bool.true_and,
    empty.ancestors closed, List.contains_cons, BEq.rfl, Bool.true_or]

end EmptyClass

end Graph

namespace Scene

variable {scene : Scene} {owner : Value} {setup : Setup} {shared : Nat}

/-- Instances are new plain data if what they share is. -/
theorem made_of_emptyClass (holds : scene.Holds graph)
    (empty : graph.EmptyClass owner setup shared)
    (plain : graph.Plain scene.keys 0 (.object shared)) :
    scene.Made 0 graph (.object graph.objects.size) (graph.adding (setup.blank shared)) := by
  have extends_ := extends_adding graph (setup.blank shared)
  have sound := holds.sound
  have known : graph.Knows (.object shared) := knows_object.2 (empty.inside sound.toClosed)
  refine ⟨extends_, empty.sound sound, ?_, ?_, ?_, ?_, fun _ => rfl⟩
  · exact knows_object.2 (by rw [size_adding]; exact Nat.lt_succ_self _)
  · rintro _ ⟨⟩
    exact Nat.le_refl _
  · refine Plain.of_lookups (fun key named => ?_) fun place _ => Nat.zero_le place
    cases isOwn : (setup.blank shared).own? key with
    | some property =>
        refine ⟨.null, ?_, .of_isMissing rfl⟩
        rw [Graph.look?, find?_adding_own graph isOwn, setup.own?_blank shared isOwn]
    | none =>
        rw [Graph.look?, sound.toClosed.find?_adding rfl (empty.inside sound.toClosed) isOwn,
          ← extends_.find? sound.toClosed known]
        exact (plain.extends extends_ sound.toClosed known).look? rfl named
  · intro key _
    have noCallee : (graph.adding (setup.blank shared)).callee? (.object graph.objects.size) =
        none := callee?_adding fun _ => by rintro ⟨⟩
    rw [Graph.isCallable, noCallee]
    rfl

/-- Of what may be asked for the default factory makes instances only of classes with empty fields,
which share something that is known to be plain and whose instances conform. -/
def Makes (scene : Scene) (steps : List Step) (around : Value → Prop) : Prop :=
  ∀ {graph : Graph} {type : Value}, scene.Holds graph → graph.Requested type → type ≠ openType →
    graph.isArrayType type = false →
      Entries.get? (ProducerTable.standard .standard).producers type = none →
        ∃ setup shared, scene.start.EmptyClass type setup shared ∧ .object shared ∈ scene.grounds ∧
          scene.start.NewbornAlone scene.start steps around (setup.blank shared)

section Makes

variable {steps : List Step} {around : Value → Prop} (makes : scene.Makes steps around)
  (soundStart : scene.start.Sound)

include makes soundStart

theorem constructs_of_makes : scene.Constructs := by
  intro graph type holds requested notOpen notArray notProduced
  obtain ⟨setup, shared, emptyStart, grounded, _⟩ :=
    makes holds requested notOpen notArray notProduced
  have empty := emptyStart.later soundStart.toClosed holds.grows.toSteady
  exact Ensures.of_ok (newInstance_of_isEmpty holds.sound.toClassed empty.callee empty.isEmpty
    empty.isShared) (made_of_emptyClass holds empty (holds.plain _ grounded))

theorem bears_of_makes : scene.Bears steps around := by
  intro graph type holds undisturbed requested notOpen notArray notProduced
  obtain ⟨setup, shared, emptyStart, _, newborn⟩ :=
    makes holds requested notOpen notArray notProduced
  have empty := emptyStart.later soundStart.toClosed holds.grows.toSteady
  exact Ensures.of_ok (newInstance_of_isEmpty holds.sound.toClassed empty.callee empty.isEmpty
    empty.isShared) ⟨empty.takes holds.sound notOpen (not_primitive_of_producers notProduced), _,
      newborn.again (emptyStart.bare soundStart.toClosed) soundStart holds.sound undisturbed⟩

end Makes

end Scene

end ObjectPath
