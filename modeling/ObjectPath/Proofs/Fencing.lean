import ObjectPath.Proofs.Garden
import ObjectPath.Proofs.Preservation

/-!
# Checks of gardens

Whether given objects form trees, whether nothing around them can be written to, and whether the
default factory makes nothing but new trees can be found out by evaluation.  The values around the
trees are simple ones.
-/

namespace ObjectPath

open Graph

namespace Graph

/-! ## Checks -/

/-- Whether what a value finds under some keys is found in slots and is among some values. -/
def findsAmong (graph : Graph) (keys : List Key) (values : List Value) (value : Value) : Bool :=
  keys.all fun key =>
    match graph.look? value key with
    | some content => values.contains content
    | none => false

/-- Whether a value is at none of some places, and inherits from no object there. -/
def isClear (graph : Graph) (places : List Nat) (value : Value) : Bool :=
  (value.place?.toList ++ graph.ancestors value).all fun place => !places.contains place

/-- Whether the slots of objects at some places hold no object of them twice. -/
def isSingle (graph : Graph) (keys : List Key) (places : List Nat) : Bool :=
  places.all fun child => places.all fun place => places.all fun other => keys.all fun key =>
    keys.all fun otherKey => graph.look? (.object place) key != some (.object child) ||
      graph.look? (.object other) otherKey != some (.object child) ||
        place == other && key == otherKey

/-- Whether objects form trees for some keys. -/
def isForest (graph : Graph) (keys : List Key) (values : List Value) (places : List Nat) : Bool :=
  places.all (fun place => graph.knows (.object place) && !graph.isCallable (.object place) &&
    !graph.isArrayType (.object place) &&
    (graph.ancestors (.object place)).all (fun other => !places.contains other) &&
    graph.findsAmong keys (values ++ places.map .object) (.object place)) &&
  graph.isSingle keys places

/-- Whether simple values find nothing but one another. -/
def isSurrounding (graph : Graph) (keys : List Key) (values : List Value) (places : List Nat) :
    Bool :=
  values.contains .undefined && values.contains .null && values.all fun value =>
    !value.isObject && (graph.ancestors value).all (fun place => !places.contains place) &&
      (value.isMissing || graph.findsAmong keys values value)

/-- Whether a new object is a tree by itself. -/
def isSprout (graph : Graph) (keys : List Key) (values : List Value) (places : List Nat)
    (object : Object) (parent : Nat) : Bool :=
  object.parent == some parent && graph.knows (.object parent) &&
    graph.isClear places (.object parent) &&
      (graph.adding object).findsAmong keys values (.object graph.objects.size)

/-- Whether objects form trees that paths can be written into. -/
def isFenced (graph : Graph) (steps : List Step) (grounds values : List Value)
    (places : List Nat) : Bool :=
  let keys := steps.map Step.key
  graph.isForest keys values places && graph.isSurrounding keys values places &&
    !keys.contains (.name "length") &&
    graph.isClear places (.object BuiltinClass.arrayType.sharedPlace) &&
    graph.isSprout keys values places (blankObject .object .plain)
      BuiltinClass.object.sharedPlace &&
    graph.isSprout keys values places (blankObject .array (.items 0 true))
      BuiltinClass.array.sharedPlace &&
    [.number (.ofNat 0), .boolean false, .string ""].all values.contains &&
    sharedValues.all grounds.contains && grounds.all graph.knows && graph.isRegion keys grounds

/-! ## What the checks say -/

variable {graph : Graph} {keys : List Key} {values : List Value} {places : List Nat}

theorem looked_of_findsAmong {value : Value} (finds : graph.findsAmong keys values value = true)
    {key : Key} (named : key ∈ keys) :
    ∃ content, graph.look? value key = some content ∧ content ∈ values := by
  have looks := List.all_eq_true.1 finds key named
  split at looks
  · rename_i content looked
    exact ⟨content, looked, List.contains_iff_mem.1 looks⟩
  · cases looks

theorem clear_of_isClear {value : Value} (isClear : graph.isClear places value = true) :
    graph.Clear (fun value => ∃ place, value = .object place ∧ place ∈ places) value := by
  rintro place which ⟨_, ⟨⟩, isPlace⟩
  have outside := List.all_eq_true.1 isClear place which
  rw [Bool.not_eq_true', ← Bool.not_eq_true, List.contains_iff_mem] at outside
  exact outside isPlace

/-- Values that are checked are simple, and so are all numbers. -/
theorem Among.isObject {value : Value} (isAmong : Among values value)
    (simple : ∀ member ∈ values, member.isObject = false) : value.isObject = false := by
  obtain ⟨member, listed, rfl | ⟨_, _, rfl, rfl⟩⟩ := isAmong
  · exact simple _ listed
  · rfl

theorem forest_of_isForest (isForest : graph.isForest keys values places = true)
    (simple : ∀ member ∈ values, member.isObject = false) :
    graph.Forest keys (Among values) (· ∈ places) := by
  obtain ⟨objects, single⟩ := Bool.and_eq_true_iff.1 isForest
  have checked : ∀ place ∈ places, graph.Knows (.object place) ∧
      graph.isCallable (.object place) = false ∧ graph.isArrayType (.object place) = false ∧
      (∀ other ∈ graph.ancestors (.object place), other ∉ places) ∧
      graph.findsAmong keys (values ++ places.map .object) (.object place) = true := by
    intro place isPlace
    have checked := List.all_eq_true.1 objects place isPlace
    simp only [Bool.and_eq_true, Bool.not_eq_true', List.all_eq_true, List.contains_eq_mem,
      decide_eq_false_iff_not] at checked
    exact ⟨knows_iff.1 checked.1.1.1.1, checked.1.1.1.2, checked.1.1.2, checked.1.2, checked.2⟩
  refine ⟨fun isPlace => knows_object.1 (checked _ isPlace).1, ?_,
    fun isPlace => ⟨(checked _ isPlace).2.1, (checked _ isPlace).2.2.1⟩, ?_, ?_, ?_⟩
  · intro place isAround _
    cases isAround.isObject simple
  · intro place key isPlace named
    obtain ⟨content, looked, listed⟩ := looked_of_findsAmong (checked place isPlace).2.2.2.2 named
    refine ⟨content, looked, ?_⟩
    rcases List.mem_append.1 listed with isValue | isObject
    · exact Or.inl (.listed isValue)
    · obtain ⟨child, isChild, rfl⟩ := List.mem_map.1 isObject
      exact Or.inr ⟨child, rfl, isChild⟩
  · intro place other child key otherKey isPlace isOther isChild named otherNamed looked lookedToo
    have slots := List.all_eq_true.1 (List.all_eq_true.1 (List.all_eq_true.1 (List.all_eq_true.1
      (List.all_eq_true.1 single child isChild) place isPlace) other isOther) key named)
      otherKey otherNamed
    rw [looked, lookedToo] at slots
    simpa using slots
  · intro place other isPlace above
    exact (checked place isPlace).2.2.2.1 other above

section Surrounding

variable (surrounding : graph.isSurrounding keys values places = true)
include surrounding

theorem checked_of_isSurrounding {member : Value} (listed : member ∈ values) :
    member.isObject = false ∧ (∀ place ∈ graph.ancestors member, place ∉ places) ∧
      (member.isMissing = false → graph.findsAmong keys values member = true) := by
  have checked := List.all_eq_true.1 (Bool.and_eq_true_iff.1 surrounding).2 member listed
  simp only [Bool.and_eq_true, Bool.not_eq_true', Bool.or_eq_true, List.all_eq_true,
    List.contains_eq_mem, decide_eq_false_iff_not] at checked
  refine ⟨checked.1.1, checked.1.2, fun present => checked.2.resolve_left ?_⟩
  rw [present]
  exact Bool.false_ne_true

theorem surrounds_of_isSurrounding : graph.Surrounds keys (Among values) (· ∈ places) := by
  have checked : ∀ member ∈ values, _ := fun _ => checked_of_isSurrounding surrounding
  obtain ⟨missing, _⟩ := Bool.and_eq_true_iff.1 surrounding
  obtain ⟨undefined, null⟩ := Bool.and_eq_true_iff.1 missing
  rw [List.contains_iff_mem] at undefined null
  refine ⟨fun isAround => knows_of_isObject_eq_false (isAround.isObject fun member listed =>
      (checked member listed).1),
    fun ⟨member, listed, like⟩ likeOther => ⟨member, listed, like.trans likeOther⟩, ?_, ?_, ?_⟩
  · rintro value key ⟨member, listed, like⟩ present named
    rw [like.isMissing] at present
    obtain ⟨content, looked, isValue⟩ :=
      looked_of_findsAmong ((checked member listed).2.2 present) named
    exact ⟨content, (look?_of_like graph like key).trans looked, .listed isValue⟩
  · intro value isMissing
    cases value with
    | undefined => exact .listed undefined
    | null => exact .listed null
    | _ => cases isMissing
  · rintro value place ⟨member, listed, like⟩ above isPlace
    rw [ancestors_of_like graph like] at above
    exact (checked member listed).2.1 place above isPlace

end Surrounding

end Graph

/-! ## Gardens that are listed -/

namespace Garden

/-- A garden with listed values around the trees and objects at listed places in them. -/
def ofLists (graph : Graph) (steps : List Step) (grounds values : List Value)
    (places : List Nat) : Garden :=
  ⟨graph, steps, grounds, Among values, (· ∈ places)⟩

variable {graph : Graph} {steps : List Step} {grounds values types : List Value}
  {places : List Nat}

theorem sprouts_of_isSprout {object : Object} {parent : Nat}
    (checked : graph.isSprout (steps.map Step.key) values places object parent = true) :
    (ofLists graph steps grounds values places).Sprouts object parent := by
  unfold isSprout at checked
  simp only [Bool.and_eq_true, beq_iff_eq] at checked
  obtain ⟨⟨⟨isParent, known⟩, clear⟩, finds⟩ := checked
  refine ⟨isParent, knows_object.1 (knows_iff.1 known), clear_of_isClear clear, ?_⟩
  intro key named
  obtain ⟨content, looked, isValue⟩ := looked_of_findsAmong finds named
  exact ⟨content, looked, .listed isValue⟩

/-- Objects that pass the check are in a garden that is fenced. -/
theorem fenced_of_isFenced (sound : graph.Sound)
    (isFenced : graph.isFenced steps grounds values places = true) :
    (ofLists graph steps grounds values places).Fenced := by
  unfold Graph.isFenced at isFenced
  simp only [Bool.and_eq_true, Bool.not_eq_true', List.contains_eq_mem,
    decide_eq_false_iff_not] at isFenced
  obtain ⟨⟨⟨⟨⟨⟨⟨⟨⟨isForest, surrounding⟩, noLength⟩, arrayTypes⟩, record⟩, array⟩, zeros⟩, furnished⟩,
    known⟩, region⟩ := isFenced
  have simple : ∀ member ∈ values, member.isObject = false := fun member listed =>
    (checked_of_isSurrounding surrounding listed).1
  have zero : ∀ value ∈ [.number (.ofNat 0), .boolean false, .string ""], Among values value :=
    fun value listed => .listed (List.contains_iff_mem.1 (List.all_eq_true.1 zeros value listed))
  exact {
    sound := sound
    forest := forest_of_isForest isForest simple
    surrounds := surrounds_of_isSurrounding surrounding
    noLength := noLength
    classes := fun isAround => by cases Among.isObject isAround simple
    closed := fun isAround => by cases Among.isObject isAround simple
    arrayTypes := clear_of_isClear arrayTypes
    record := sprouts_of_isSprout record
    array := sprouts_of_isSprout array
    zeros := ⟨zero _ (by simp), zero _ (by simp), zero _ (by simp)⟩
    furnished := fun value listed =>
      List.contains_iff_mem.1 (List.all_eq_true.1 furnished value listed)
    grounded := fun value listed =>
      ⟨knows_iff.1 (List.all_eq_true.1 known value listed), plain_of_check region listed⟩ }

/-! ## Classes with empty fields -/

/-- Of what may be asked for, the default factory makes instances only of classes with empty
fields, which share something that is known to be plain and whose instances are trees. -/
def Makes (garden : Garden) : Prop :=
  ∀ {graph : Graph} {type : Value}, graph.Sound → garden.start.SameTypes graph →
    graph.Requested type → type ≠ openType → graph.isArrayType type = false →
      Entries.get? (ProducerTable.standard .standard).producers type = none →
        ∃ setup shared, garden.start.EmptyClass type setup shared ∧
          .object shared ∈ garden.grounds ∧ garden.Sprouts (setup.blank shared) shared

section Makes

variable {garden : Garden} (fenced : garden.Fenced) (makes : garden.Makes)
include fenced makes

theorem constructs_of_makes : garden.Constructs := by
  intro graph inside stands later type holds requested notOpen notArray notProduced
  have closed := fenced.sound.toClosed
  have same : garden.start.SameTypes later :=
    stands.since.same.trans closed (holds.grows.sameTypes stands.sound)
  obtain ⟨setup, shared, emptyStart, grounded, _⟩ :=
    makes holds.sound same requested notOpen notArray notProduced
  have empty := emptyStart.later closed same.toSteady
  exact Ensures.of_ok (newInstance_of_isEmpty holds.sound.toClassed empty.callee empty.isEmpty
    empty.isShared) (Scene.made_of_emptyClass holds empty (holds.plain _ grounded))

theorem bears_of_makes : garden.Bears := by
  intro graph inside type stands requested notOpen notArray notProduced
  obtain ⟨setup, shared, emptyStart, _, sprouts⟩ :=
    makes stands.sound stands.since.same requested notOpen notArray notProduced
  have empty := emptyStart.later fenced.sound.toClosed stands.since.same.toSteady
  exact Ensures.of_ok (newInstance_of_isEmpty stands.sound.toClassed empty.callee empty.isEmpty
    empty.isShared) ⟨_, stands.seedling_sprout fenced sprouts (fun _ => by rintro ⟨⟩)
      (empty.isArrayType_blank stands.sound.toClosed)⟩

end Makes

theorem makes_of_isStaffed (sound : graph.Sound)
    (staffed : graph.isStaffed (fun setup shared => grounds.contains (.object shared) &&
      graph.isSprout (steps.map Step.key) values places (setup.blank shared) shared) types = true) :
    (ofLists graph steps grounds values places).Makes := by
  intro later type soundLater same requested notOpen notArray notProduced
  obtain ⟨setup, shared, isClass, allowed⟩ := emptyClass_of_isStaffed sound staffed same soundLater
    requested notOpen notArray notProduced
  obtain ⟨grounded, isSprout⟩ := Bool.and_eq_true_iff.1 allowed
  exact ⟨setup, shared, isClass, List.contains_iff_mem.1 grounded, sprouts_of_isSprout isSprout⟩

/-! ## A person without an address -/

/-- The steps to codes of the address of a person. -/
def codeSteps : List Step :=
  [.field "home", .field "codes", .element 0, .element 1, .element 2]

/-- A garden with a person who has no address. -/
def personGarden : Garden :=
  .ofLists peopleGraph codeSteps Session.personGrounds
    [.undefined, .null, .number (.ofNat 0), .boolean false, .string ""]
    [peopleGraph.objects.size - 1]

theorem fenced_personGarden : personGarden.Fenced :=
  fenced_of_isFenced sound_peopleGraph (by decide +kernel)

/-- The default factory makes addresses for people. -/
theorem makes_personGarden : personGarden.Makes :=
  @makes_of_isStaffed _ _ _ _ personTypes _ sound_peopleGraph (by decide +kernel)

/-- No slot holds the person. -/
theorem stem_lonePerson : peopleGraph.Stem personGarden.keys personGarden.around
    personGarden.planted lonePerson where
  belongs := Or.inr ⟨_, rfl, List.mem_singleton_self _⟩
  loose := by
    rintro _ ⟨⟩ _ place key isInside named
    rw [List.mem_singleton.1 isInside]
    revert key
    decide +kernel

end Garden

end ObjectPath
