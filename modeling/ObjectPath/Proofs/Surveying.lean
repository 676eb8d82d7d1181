import ObjectPath.Proofs.Bringing
import ObjectPath.Proofs.Concluding
import ObjectPath.Proofs.Frame
import ObjectPath.Proofs.Instances

/-!
# Checks of conforming values

Whether given values conform whose arrays have no elements and are in no slot, whether what the
default factory makes conforms among them, and whether it runs only constructors that make empty
slots can be found out by evaluation.  The checks look at every value and every field once.
-/

namespace ObjectPath

open Graph

/-! ## Names that are no element numbers -/

/-- Whether a name has a character that is no digit. -/
def hasLetter (name : String) : Bool :=
  name.toList.any fun character => !character.isDigit

theorem Key.ofIndex_ne_of_hasLetter {name : String} (letter : hasLetter name = true)
    (index : Nat) : Key.ofIndex index ≠ .name name := by
  obtain ⟨character, member, noDigit⟩ := List.any_eq_true.1 letter
  exact Key.ofIndex_ne_name index member (by simpa using noDigit)

theorem Key.ofText_ne_of_hasLetter {name : String} (letter : hasLetter name = true)
    (index : Nat) : Key.ofText name ≠ .ofIndex index := by
  intro same
  obtain ⟨character, member, noDigit⟩ := List.any_eq_true.1 letter
  have isNumber : name = Nat.repr index := by
    rw [← Key.text_ofText name, same]
    unfold Key.ofIndex
    split <;> rfl
  rw [isNumber, Nat.toList_repr] at member
  rw [Nat.isDigit_of_mem_toDigits (by decide) (by decide) member] at noDigit
  cases noDigit

/-- Whether an object has no elements. -/
def Object.isVoid (object : Object) : Bool :=
  (match object.body with
    | .boxed _ => false
    | _ => true) &&
  object.slots.all fun slot => match slot.1 with
    | .index _ => false
    | .name name => hasLetter name

/-- The elements of an object that is no boxed text are in its slots. -/
theorem Object.own?_ofIndex {object : Object}
    (noBox : (match object.body with
      | .boxed _ => false
      | _ => true) = true) (index : Nat) :
    object.own? (.ofIndex index) = Entries.get? object.slots (.ofIndex index) := by
  obtain ⟨parent, body, slots, extensible⟩ := object
  cases body with
  | items length resizable =>
      have different := Key.ofIndex_ne_name index (show 'l' ∈ "length".toList by decide) (by decide)
      unfold Object.own? Object.intrinsic?
      dsimp only
      rw [if_neg different]
  | boxed content => cases noBox
  | _ => rfl

theorem Object.own?_of_isVoid {object : Object} (isVoid : object.isVoid = true) (index : Nat) :
    object.own? (.ofIndex index) = none := by
  obtain ⟨noBox, slots⟩ := Bool.and_eq_true_iff.1 isVoid
  rw [Object.own?_ofIndex noBox]
  cases found : Entries.get? object.slots (.ofIndex index) with
  | none => rfl
  | some property =>
      have allowed := List.all_eq_true.1 slots _ (Entries.mem_of_get? found)
      dsimp only at allowed
      split at allowed
      · cases allowed
      · rename_i name isName
        exact absurd isName (Key.ofIndex_ne_of_hasLetter allowed index)

namespace Graph

/-! ## Checks -/

/-- The keys under which a value is read that is no array. -/
def readKeys (graph : Graph) (steps : List Step) (value : Value) : List Key :=
  steps.map Step.key ++
    (graph.fields (graph.classOf value) .onInstance).map fun entry => Key.ofText entry.1

/-- Whether what is read on a value is found in slots and is among some values and no array, and
its fields hold what they are declared to hold. -/
def holdsAmong (graph : Graph) (steps : List Step) (values : List Value) (value : Value) : Bool :=
  (graph.readKeys steps value).all (fun key =>
    match graph.look? value key with
    | some content => values.contains content && !graph.isArray content
    | none => false) &&
  (graph.fields (graph.classOf value) .onInstance).all fun entry =>
    (graph.member value (.ofText entry.1)).isMissing ||
      graph.takes entry.2.type (graph.member value (.ofText entry.1))

/-- Whether a value has no elements, not even by what it inherits from. -/
def isBarren (graph : Graph) (value : Value) : Bool :=
  (value.place?.toList ++ graph.ancestors value).all fun place =>
    (graph.object? place).all Object.isVoid

/-- Whether the elements of a value, if it is an array, are all missing and among some values. -/
def sparesElements (graph : Graph) (values : List Value) (value : Value) : Bool :=
  !graph.isArray value || values.contains .undefined && graph.isBarren value

/-- Whether some values conform that have no elements and inherit from none of them.  None of them
holds an array. -/
def isFlat (graph : Graph) (steps : List Step) (values : List Value) : Bool :=
  values.all fun value => graph.knows value && graph.sparesElements values value &&
    (value.isMissing || graph.holdsAmong steps values value) &&
    (graph.ancestors value).all fun place => !values.contains (.object place)

/-- Whether some values are no arrays and inherit from none of some others. -/
def isApart (graph : Graph) (values others : List Value) : Bool :=
  values.all fun value => !graph.isArray value &&
    (graph.ancestors value).all fun place => !others.contains (.object place)

/-- Whether a new object conforms among some values. -/
def isNewborn (graph : Graph) (steps : List Step) (values : List Value) (object : Object) : Bool :=
  (graph.adding object).holdsAmong steps values (.object graph.objects.size) &&
  ((graph.adding object).ancestors (.object graph.objects.size)).all (fun place =>
    decide (place < graph.objects.size) && !values.contains (.object place)) &&
  (graph.adding object).sparesElements values (.object graph.objects.size)

/-- Whether new records, new arrays and the zero values conform among some values. -/
def isWelcoming (graph : Graph) (steps : List Step) (values : List Value) : Bool :=
  [.number (.ofNat 0), .boolean false, .string ""].all values.contains &&
    graph.isNewborn steps values (blankObject .object .plain) &&
    graph.isNewborn steps values (blankObject .array (.items 0 true))

/-- Whether the field names of some steps and those declared for arrays are no element numbers. -/
def isLettered (graph : Graph) (steps : List Step) : Bool :=
  steps.all (fun step => match step with
    | .field name => hasLetter name
    | .element _ => true) &&
  (graph.fields (.object BuiltinClass.array.place) .onInstance).all fun entry => hasLetter entry.1

/-- What a class makes whose constructor only makes empty slots: the slots, on what the instances
share. -/
def emptyClass? (graph : Graph) (owner : Value) : Option (Setup × Nat) :=
  match graph.callee? owner, graph.member owner (.name "prototype") with
  | some (.definedClass false setup), .object shared =>
      if setup.isEmpty && !graph.isArrayType (.object shared) &&
          shared != BuiltinClass.arrayType.sharedPlace then
        some (setup, shared)
      else
        none
  | _, _ => none

/-- Whether a list of types covers what may be asked for, and the default factory has values for
the types in it or makes instances of classes with empty fields that are allowed. -/
def isStaffed (graph : Graph) (allowed : Setup → Nat → Bool) (types : List Value) : Bool :=
  graph.covers types && types.all fun type => type == openType || graph.isArrayType type ||
    (Entries.get? (ProducerTable.standard .standard).producers type).isSome ||
    match graph.emptyClass? type with
    | some (setup, shared) => allowed setup shared
    | none => false

/-- Whether the default factory has values for the types in a list, or makes instances that
conform among some values and share something that is listed. -/
def isEquipped (graph : Graph) (steps : List Step) (values grounds types : List Value) : Bool :=
  graph.covers types && types.all fun type => type == openType || graph.isArrayType type ||
    (Entries.get? (ProducerTable.standard .standard).producers type).isSome ||
    match graph.emptyClass? type with
    | some (setup, shared) =>
        grounds.contains (.object shared) && graph.isNewborn steps values (setup.blank shared)
    | none => false

/-! ## What the checks say -/

/-- The values of a list, and all numbers if there is one in it. -/
def Among (values : List Value) (value : Value) : Prop :=
  ∃ member ∈ values, Value.Like member value

variable {graph : Graph} {steps : List Step} {values : List Value}

theorem Among.listed {value : Value} (listed : value ∈ values) : Among values value :=
  ⟨value, listed, .refl value⟩

theorem mem_readKeys {value : Value} {key : Key} (reads : graph.Reads steps value key) :
    key ∈ graph.readKeys steps value ∨
      graph.isArray value = true ∧ ∃ index, key = .ofIndex index := by
  rcases reads with listed | ⟨step, names, rfl⟩
  · exact Or.inl (List.mem_append_left _ listed)
  · cases step with
    | element index => exact Or.inr ⟨names, index, rfl⟩
    | field name =>
        rcases names with listed | declared
        · exact Or.inl (List.mem_append_left _ (List.mem_map_of_mem listed))
        · obtain ⟨declaration, found⟩ := Option.isSome_iff_exists.1 declared
          exact Or.inl (List.mem_append_right _
            (List.mem_map_of_mem (Entries.mem_of_get? found)))

section Held

variable {value : Value} (holds : graph.holdsAmong steps values value = true)

include holds

theorem looked_of_holdsAmong {key : Key} (listed : key ∈ graph.readKeys steps value) :
    ∃ content ∈ values, graph.look? value key = some content ∧ graph.isArray content = false := by
  have looks := List.all_eq_true.1 (Bool.and_eq_true_iff.1 holds).1 key listed
  split at looks
  · rename_i content looked
    simp only [Bool.and_eq_true, List.contains_iff_mem, Bool.not_eq_true'] at looks
    exact ⟨content, looks.1, looked, looks.2⟩
  · cases looks

theorem conforms_of_holdsAmong {name : String} {declaration : FieldDeclaration}
    (declared : graph.declaration? value name = some declaration) :
    graph.Conforms declaration.type (graph.member value (.ofText name)) := by
  have entered := Entries.mem_of_get? declared
  obtain ⟨content, _, looked, noArray⟩ := looked_of_holdsAmong holds
    (List.mem_append_right _ (List.mem_map_of_mem entered))
  have isContent : graph.member value (.ofText name) = content := member_of_look? looked
  have fits := List.all_eq_true.1 (Bool.and_eq_true_iff.1 holds).2 _ entered
  dsimp only at fits
  rw [isContent] at fits ⊢
  rcases Bool.or_eq_true_iff.1 fits with missing | takes
  · exact .of_isMissing missing
  · exact .of_takes takes noArray

end Held

section Barren

variable {value : Value} (spares : graph.sparesElements values value = true)
  (isArray : graph.isArray value = true)

include spares isArray

theorem barren_of_sparesElements : .undefined ∈ values ∧
    ∀ place ∈ value.place?.toList ++ graph.ancestors value, ∀ index,
      graph.ownAt? place (.ofIndex index) = none := by
  rw [sparesElements, isArray, Bool.not_true, Bool.false_or] at spares
  obtain ⟨nothing, barren⟩ := Bool.and_eq_true_iff.1 spares
  refine ⟨List.contains_iff_mem.1 nothing, fun place which index => ?_⟩
  have isVoid := List.all_eq_true.1 barren place which
  unfold ownAt?
  cases found : graph.object? place with
  | none => rfl
  | some object =>
      rw [found, Option.all_some] at isVoid
      exact Object.own?_of_isVoid isVoid index

theorem element_of_sparesElements (index : Nat) :
    .undefined ∈ values ∧ graph.look? value (.ofIndex index) = some .undefined := by
  obtain ⟨nothing, none⟩ := barren_of_sparesElements spares isArray
  refine ⟨nothing, ?_⟩
  cases value with
  | object place =>
      have inherited : graph.inherited? (.object place) (.ofIndex index) = Option.none :=
        List.findSome?_eq_none_iff.2 fun other above =>
          none other (List.mem_append_right _ above) index
      simp only [look?, find?, own?, none place (List.mem_append_left _ (List.mem_singleton.2 rfl)),
        inherited]
  | _ => cases isArray

end Barren

section Flat

variable (flat : graph.isFlat steps values = true)

include flat

theorem member_of_isFlat {value : Value} (listed : value ∈ values) :
    graph.Knows value ∧ graph.sparesElements values value = true ∧
      (value.isMissing = false → graph.holdsAmong steps values value = true) ∧
      ∀ place ∈ graph.ancestors value, Value.object place ∉ values := by
  have checked := List.all_eq_true.1 flat value listed
  simp only [Bool.and_eq_true, Bool.or_eq_true, Bool.not_eq_true', List.all_eq_true] at checked
  obtain ⟨⟨⟨known, spares⟩, holds⟩, above⟩ := checked
  refine ⟨knows_iff.1 known, spares, fun present => ?_, fun place isAbove isListed => ?_⟩
  · rcases holds with missing | holds
    · rw [present] at missing
      cases missing
    · exact holds
  · have absent := above place isAbove
    rw [List.contains_iff_mem.2 isListed] at absent
    cases absent

/-- What is read on one of the values is one of them. -/
theorem looked_of_isFlat {value : Value} {key : Key} (isAmong : Among values value)
    (present : value.isMissing = false) (reads : graph.Reads steps value key) :
    ∃ content, graph.look? value key = some content ∧ Among values content ∧
      graph.isArray content = false := by
  obtain ⟨member, listed, like⟩ := isAmong
  have readsMember : graph.Reads steps member key := by
    rcases like with rfl | ⟨old, new, rfl, rfl⟩
    · exact reads
    · exact reads_of_alike rfl rfl reads
  obtain ⟨_, spares, holds, _⟩ := member_of_isFlat flat listed
  rw [look?, find?_of_like graph like, ← look?]
  rcases mem_readKeys readsMember with isKey | ⟨isArray, index, rfl⟩
  · obtain ⟨content, isContent, looked, noArrayContent⟩ :=
      looked_of_holdsAmong (holds (by rw [← like.isMissing, present])) isKey
    exact ⟨content, looked, .listed isContent, noArrayContent⟩
  · obtain ⟨nothing, looked⟩ := element_of_sparesElements spares isArray index
    exact ⟨.undefined, looked, .listed nothing, rfl⟩

theorem conforming_of_isFlat : graph.Conforming steps (fun _ => False) (Among values) where
  known := by
    rintro value ⟨member, listed, rfl | ⟨old, new, rfl, rfl⟩⟩
    · exact (member_of_isFlat flat listed).1
    · exact knows_of_isObject_eq_false rfl
  like := fun ⟨member, listed, like⟩ onward => ⟨member, listed, like.trans onward⟩
  looked := by
    intro value key isAmong present reads
    obtain ⟨content, looked, isContent, _⟩ := looked_of_isFlat flat isAmong present reads
    exact ⟨content, looked, Or.inl isContent⟩
  fields := by
    rintro value name declaration ⟨member, listed, like⟩ present declared
    rw [declaration?, classOf_of_like graph like] at declared
    rw [Graph.member, find?_of_like graph like]
    exact conforms_of_holdsAmong
      ((member_of_isFlat flat listed).2.2.1 (by rw [← like.isMissing, present])) declared

theorem unshared_of_isFlat : graph.Unshared steps (Among values) where
  alone := by
    rintro value other array step step' isAmong _ present _ names _ rfl _ isArray
    obtain ⟨content, looked, _, noArray⟩ :=
      looked_of_isFlat flat isAmong present (reads_of_names names)
    rw [member_of_look? looked, noArray] at isArray
    cases isArray
  heirs := by
    rintro value place ⟨member, listed, like⟩ ⟨other, listedOther, likeOther⟩ above
    have same : other = .object place := by
      rcases likeOther with rfl | ⟨_, _, _, impossible⟩
      · rfl
      · cases impossible
    subst same
    rw [ancestors_of_like graph like] at above
    exact absurd listedOther ((member_of_isFlat flat listed).2.2.2 place above)
  elements := by
    rintro value place ⟨member, listed, rfl | ⟨old, new, rfl, rfl⟩⟩ isArray above index
    · exact (barren_of_sparesElements (member_of_isFlat flat listed).2.1 isArray).2 place
        (List.mem_append_right _ above) index
    · cases isArray

/-- Values that are no arrays can be brought to others from which they inherit nothing. -/
theorem brought_of_isFlat {others : List Value} (apart : graph.isApart values others = true) :
    graph.Brought steps (Among others) (Among values) where
  conforming := conforming_of_isFlat flat
  apart := by
    rintro value ⟨member, listed, rfl | ⟨old, new, rfl, rfl⟩⟩ isArray
    · have checked := (Bool.and_eq_true_iff.1 (List.all_eq_true.1 apart _ listed)).1
      rw [isArray] at checked
      cases checked
    · cases isArray
  heirs := by
    rintro value place ⟨member, listed, like⟩ ⟨other, listedOther, likeOther⟩ above
    have same : other = .object place := by
      rcases likeOther with rfl | ⟨_, _, _, impossible⟩
      · rfl
      · cases impossible
    subst same
    rw [ancestors_of_like graph like] at above
    have absent := List.all_eq_true.1
      (Bool.and_eq_true_iff.1 (List.all_eq_true.1 apart _ listed)).2 place above
    rw [List.contains_iff_mem.2 listedOther] at absent
    cases absent

end Flat

theorem Among.of_object {place : Nat} (isAmong : Among values (.object place)) :
    .object place ∈ values := by
  obtain ⟨member, listed, rfl | ⟨_, _, _, impossible⟩⟩ := isAmong
  · exact listed
  · cases impossible

section Made

variable {object : Object} (isNewborn : graph.isNewborn steps values object = true)

include isNewborn

theorem above_of_isNewborn {place : Nat}
    (above : place ∈ (graph.adding object).ancestors (.object graph.objects.size)) :
    place < graph.objects.size ∧ .object place ∉ values := by
  have checked := List.all_eq_true.1
    (Bool.and_eq_true_iff.1 (Bool.and_eq_true_iff.1 isNewborn).1).2 place above
  simp only [Bool.and_eq_true, decide_eq_true_eq, Bool.not_eq_true'] at checked
  refine ⟨checked.1, fun listed => ?_⟩
  rw [List.contains_iff_mem.2 listed] at checked
  cases checked.2

/-- What is read on the new object is among the values. -/
theorem looked_of_isNewborn {key : Key}
    (reads : (graph.adding object).Reads steps (.object graph.objects.size) key) :
    ∃ content, (graph.adding object).look? (.object graph.objects.size) key = some content ∧
      Among values content ∧ (graph.adding object).isArray content = false := by
  have holds := (Bool.and_eq_true_iff.1 (Bool.and_eq_true_iff.1 isNewborn).1).1
  rcases mem_readKeys reads with isKey | ⟨isArray, index, rfl⟩
  · obtain ⟨content, listed, looked, noArray⟩ := looked_of_holdsAmong holds isKey
    exact ⟨content, looked, .listed listed, noArray⟩
  · obtain ⟨nothing, looked⟩ :=
      element_of_sparesElements (Bool.and_eq_true_iff.1 isNewborn).2 isArray index
    exact ⟨.undefined, looked, .listed nothing, rfl⟩

theorem slot_of_isNewborn {step : Step}
    (names : (graph.adding object).Names steps (.object graph.objects.size) step) :
    (graph.adding object).isArray
      ((graph.adding object).member (.object graph.objects.size) step.key) = false := by
  obtain ⟨content, looked, _, noArray⟩ := looked_of_isNewborn isNewborn (reads_of_names names)
  rwa [member_of_look? looked]

/-- A new object that passes the check is newborn. -/
theorem newbornAlone_of_isNewborn : graph.NewbornAlone graph steps (Among values) object where
  belongs := rfl
  new := by
    rintro place ⟨⟩
    exact Nat.le_refl _
  conforming := {
    known := by
      rintro value rfl
      exact knows_object.2 (by rw [size_adding]; exact Nat.lt_succ_self _)
    like := by
      rintro value other rfl like
      exact like.eq_of_object rfl
    looked := by
      rintro value key rfl _ reads
      obtain ⟨content, looked, isAmong, noArray⟩ := looked_of_isNewborn isNewborn reads
      exact ⟨content, looked, Or.inr ⟨isAmong, noArray⟩⟩
    fields := by
      rintro value name declaration rfl _ declared
      exact conforms_of_holdsAmong
        (Bool.and_eq_true_iff.1 (Bool.and_eq_true_iff.1 isNewborn).1).1 declared }
  unshared := {
    alone := by
      rintro value other array step step' rfl rfl _ _ names _ rfl _ isArray
      rw [slot_of_isNewborn isNewborn names] at isArray
      cases isArray
    heirs := by
      rintro value place rfl isPlace above
      cases isPlace
      exact absurd (above_of_isNewborn isNewborn above).1 (Nat.lt_irrefl _)
    elements := by
      rintro value place rfl isArray above index
      exact (barren_of_sparesElements (Bool.and_eq_true_iff.1 isNewborn).2 isArray).2 place
        (List.mem_append_right _ above) index }
  outer := by
    rintro value place rfl above _
    obtain ⟨old, notListed⟩ := above_of_isNewborn isNewborn above
    exact ⟨old, fun isAmong => notListed isAmong.of_object⟩
  unheld := by
    rintro isArray value step rfl _ names isMade
    rw [← isMade, slot_of_isNewborn isNewborn names] at isArray
    cases isArray

end Made

theorem welcomes_of_isWelcoming (welcoming : graph.isWelcoming steps values = true) :
    graph.Welcomes steps (Among values) := by
  obtain ⟨welcoming, array⟩ := Bool.and_eq_true_iff.1 welcoming
  obtain ⟨zeros, record⟩ := Bool.and_eq_true_iff.1 welcoming
  have zero : ∀ value ∈ [.number (.ofNat 0), .boolean false, .string ""], Among values value :=
    fun value listed => .listed (List.contains_iff_mem.1 (List.all_eq_true.1 zeros value listed))
  exact ⟨newbornAlone_of_isNewborn record, newbornAlone_of_isNewborn array,
    zero _ (by simp), zero _ (by simp), zero _ (by simp)⟩

theorem lettered_of_isLettered (lettered : graph.isLettered steps = true) :
    graph.Lettered steps := by
  obtain ⟨letters, declared⟩ := Bool.and_eq_true_iff.1 lettered
  refine ⟨fun listed => ?_, fun found => ?_⟩
  · exact Key.ofText_ne_of_hasLetter (List.all_eq_true.1 letters _ listed)
  · exact Key.ofText_ne_of_hasLetter (List.all_eq_true.1 declared _ (Entries.mem_of_get? found))

theorem emptyClass_of_check {owner : Value} {setup : Setup} {shared : Nat}
    (isClass : graph.emptyClass? owner = some (setup, shared)) :
    graph.EmptyClass owner setup shared := by
  unfold emptyClass? at isClass
  split at isClass
  · rename_i found shares callee isShared
    split at isClass
    · rename_i checked
      cases isClass
      simp only [Bool.and_eq_true, Bool.not_eq_true', bne_iff_ne] at checked
      exact ⟨callee, checked.1.1, isShared, checked.1.2, checked.2⟩
    · cases isClass
  · cases isClass

/-- What is asked for, if the default factory has no value of its own for it, is a class in the
list that passed the check. -/
theorem emptyClass_of_isStaffed {start : Graph} {allowed : Setup → Nat → Bool} {types : List Value}
    (sound : start.Sound) (staffed : start.isStaffed allowed types = true)
    (same : start.SameTypes graph) (soundLater : graph.Sound) {type : Value}
    (requested : graph.Requested type) (notOpen : type ≠ openType)
    (notArray : graph.isArrayType type = false)
    (notProduced : Entries.get? (ProducerTable.standard .standard).producers type = none) :
    ∃ setup shared, start.EmptyClass type setup shared ∧ allowed setup shared = true := by
  obtain ⟨covers, staffed⟩ := Bool.and_eq_true_iff.1 staffed
  rcases requested_of_covers sound covers same soundLater requested with listed | ⟨isArrayType, _⟩
  · have isStaffed := List.all_eq_true.1 staffed type listed
    rw [← isArrayType_of_covers sound covers same listed, notArray, notProduced,
      beq_eq_false_iff_ne.2 notOpen] at isStaffed
    simp only [Bool.or_false, Option.isSome_none, Bool.false_or] at isStaffed
    split at isStaffed
    · rename_i setup shared isClass
      exact ⟨setup, shared, emptyClass_of_check isClass, isStaffed⟩
    · cases isStaffed
  · rw [notArray] at isArrayType
    cases isArrayType

end Graph

namespace Scene

variable {scene : Scene} {types : List Value} {steps : List Step} {values : List Value}

/-- What is asked for is a class in the list that passed the check. -/
theorem makes_of_check (sound : scene.start.Sound)
    (equipped : scene.start.isEquipped steps values scene.grounds types = true) :
    scene.Makes steps (Among values) := by
  intro graph type holds requested notOpen notArray notProduced
  have staffed : scene.start.isStaffed (fun setup shared => scene.grounds.contains (.object shared) &&
      scene.start.isNewborn steps values (setup.blank shared)) types = true := equipped
  obtain ⟨setup, shared, isClass, allowed⟩ := emptyClass_of_isStaffed sound staffed
    (holds.grows.sameTypes sound) holds.sound requested notOpen notArray notProduced
  obtain ⟨grounded, isNewborn⟩ := Bool.and_eq_true_iff.1 allowed
  exact ⟨setup, shared, isClass, List.contains_iff_mem.1 grounded,
    newbornAlone_of_isNewborn isNewborn⟩

end Scene

namespace Session

variable {path : Path} {target value : Value} {arguments : Option ArgumentMap} {supply : Factory}
  {world : World}

/-- Whether a value that is no array is of the type that the last node of a path has on its
target. -/
def takesAsked (path : Path) (target value : Value) (arguments : Option ArgumentMap)
    (supply : Factory) (world : World) : Bool :=
  match walkPath path (.onValue target) ⟨arguments, some supply⟩ world with
  | .ok (.arrived position) middle =>
      match path.lastNode.typeAt (path.resolverIn world) arguments position middle.graph with
      | .ok type _ => middle.graph.takes type value && !middle.graph.isArray value
      | .error _ _ => true
  | _ => true

theorem conforms_of_takesAsked (takes : takesAsked path target value arguments supply world = true)
    (type : Value) (middle : World) (asks : AsksFor path target arguments supply world type middle) :
    middle.graph.Conforms type value := by
  obtain ⟨holder, walked, asked⟩ := asks
  simp only [takesAsked, walked, asked, Bool.and_eq_true, Bool.not_eq_true'] at takes
  exact .of_takes takes.1 takes.2

end Session

/-! ## A class of people -/

/-- The standard graph with classes of addresses and of people.  An address has arrays of arrays
of numbers, and a person has an address; the last object is a person without one. -/
@[irreducible]
def peopleGraph : Graph :=
  stateAfter (do
    let address ← Run.newClass "Address" none ⟨none, none, []⟩
    Run.declareField (← Run.read address "prototype") "codes"
      (← Run.nest (.object BuiltinClass.number.place) 2)
    let person ← Run.newClass "Person" none ⟨none, none, [⟨"home", none, .null⟩]⟩
    let shared ← Run.read person "prototype"
    Run.declareField shared "home" address
    Run.allocate ⟨shared.place?, .plain, Run.dataSlots [(.name "home", .null)], true⟩)
    Graph.standard

/-- The class of addresses. -/
def addressClass : Value :=
  .object Graph.standard.objects.size

/-- The person without an address. -/
def lonePerson : Value :=
  .object (peopleGraph.objects.size - 1)

/-- The person, and what is found on it and on new objects. -/
def personValues : List Value :=
  [lonePerson, .undefined, .null, .number (.ofNat 0), .boolean false, .string ""]

/-- The types that may be asked for under a person. -/
def personTypes : List Value :=
  let codes := (peopleGraph.fields addressClass .onInstance).map fun field => field.2.type
  [openType, addressClass, .object BuiltinClass.number.place] ++ codes ++
    codes.map fun type => peopleGraph.member type (.name "componentType")

theorem sound_peopleGraph : peopleGraph.Sound :=
  sound_of_check (by decide +kernel)

end ObjectPath
