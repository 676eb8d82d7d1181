import ObjectPath.Proofs.Following

/-!
# Graphs that only grow

New objects leave everything that is there as it is.  A value that is filled in where a
lookup found nothing leaves every other answer as it is: an object that is asked before
the one that answers would have given the same answer itself, so it was not empty.
-/

namespace ObjectPath.Graph

/-! ## New objects -/

/-- A graph that extends another has its objects unchanged, and possibly more of them. -/
structure Extends (before after : Graph) : Prop where
  size : before.objects.size ≤ after.objects.size
  objects : ∀ {place : Nat}, place < before.objects.size →
    after.object? place = before.object? place
  declared : after.declarations = before.declarations

namespace Extends

theorem refl (graph : Graph) : graph.Extends graph where
  size := Nat.le_refl _
  objects := fun _ => rfl
  declared := rfl

variable {first second third : Graph}

theorem trans (left : first.Extends second) (right : second.Extends third) :
    first.Extends third where
  size := Nat.le_trans left.size right.size
  objects := fun inside =>
    (right.objects (Nat.lt_of_lt_of_le inside left.size)).trans (left.objects inside)
  declared := right.declared.trans left.declared

theorem follows (extends_ : first.Extends second) : first.Follows second where
  size := extends_.size
  kept := by
    intro place object found
    refine ⟨object, ?_, rfl, rfl, Or.inl rfl⟩
    rw [extends_.objects (lt_of_object? found)]
    exact found
  declared := extends_.declared

theorem ownAt? (extends_ : first.Extends second) {place : Nat}
    (inside : place < first.objects.size) (key : Key) :
    second.ownAt? place key = first.ownAt? place key := by
  rw [Graph.ownAt?, Graph.ownAt?, extends_.objects inside]

/-- New objects change no lookup on a value that was there before. -/
theorem find? (extends_ : first.Extends second) (closed : first.Closed) {value : Value}
    (known : first.Knows value) (key : Key) :
    second.find? value key = first.find? value key :=
  find?_eq_of_asked (extends_.follows.ancestors closed known)
    fun _ isAsked => extends_.ownAt? (closed.asked_lt known isAsked) key

theorem member (extends_ : first.Extends second) (closed : first.Closed) {value : Value}
    (known : first.Knows value) (key : Key) :
    second.member value key = first.member value key := by
  rw [Graph.member, Graph.member, extends_.find? closed known]

/-- A store into a new object is part of the extension. -/
theorem store (extends_ : first.Extends second) {place : Nat}
    (new : first.objects.size ≤ place) (key : Key) (content : Value) :
    first.Extends (second.store (.object place) key content) where
  size := by
    rw [size_store]
    exact extends_.size
  objects := by
    intro other inside
    rw [object?_store, if_neg (by omega)]
    exact extends_.objects inside
  declared := (follows_store second place key content).declared.trans extends_.declared

end Extends

/-! ## Growth -/

/-- Whether a lookup finds nothing, or a slot with a missing value. -/
def Lacks (graph : Graph) (value : Value) (key : Key) : Prop :=
  ∀ property, graph.find? value key = some property → property.isBlank = true

/-- The keys under which the class of a value is looked up. -/
def classKeys : List Key :=
  [.name "constructor", .name "prototype"]

/-- What becomes of a member under a guarded key: nothing, or a slot that holds no function. -/
def Calm (graph : Graph) (before after : Option Property) : Prop :=
  after = before ∨
    ∃ content flags, after = some (.data content flags) ∧ graph.Knows content ∧
      graph.isCallable content = false

/-- A graph is steady after another if the classes of values are still the same, and what
changed under the guarded keys is no function now. -/
structure Steady (guarded : List Key) (before after : Graph) : Prop
    extends Follows before after where
  classes : ∀ {place : Nat} {key : Key}, key ∈ classKeys → place < before.objects.size →
    after.ownAt? place key = before.ownAt? place key
  calm : ∀ {place : Nat} {key : Key}, key ∈ guarded → place < before.objects.size →
    after.Calm (before.ownAt? place key) (after.ownAt? place key)

/-- A graph that has grown from another moreover gives every answer that the other gave, and
has every slot that the other had with a value in it. -/
structure Grows (guarded : List Key) (before after : Graph) : Prop
    extends Steady guarded before after where
  found : ∀ {value : Value} {key : Key} {property : Property}, before.Knows value →
    before.find? value key = some property → property.isBlank = false →
      ∃ later, after.find? value key = some later ∧ property.Like later
  slots : ∀ {place : Nat} {object : Object} {key : Key} {property : Property},
    before.object? place = some object → Entries.get? object.slots key = some property →
      property.isBlank = false →
        ∃ later, after.object? place = some later ∧
          Entries.get? later.slots key = some property

theorem Calm.trans {before after : Graph} (follows : before.Follows after)
    {first second third : Option Property} (left : before.Calm first second)
    (right : after.Calm second third) : after.Calm first third := by
  rcases right with rfl | changed
  · rcases left with same | ⟨content, flags, own, known, calm⟩
    · exact Or.inl same
    · refine Or.inr ⟨content, flags, own, follows.knows known, ?_⟩
      rw [follows.isCallable known]
      exact calm
  · exact Or.inr changed

/-- The nearest of several members is as calm as they are. -/
theorem Calm.findSome? {α : Type} {graph : Graph} {find later : α → Option Property}
    {holders : List α} (calm : ∀ holder ∈ holders, graph.Calm (find holder) (later holder)) :
    graph.Calm (holders.findSome? find) (holders.findSome? later) := by
  induction holders with
  | nil => exact Or.inl rfl
  | cons holder rest inductionHypothesis =>
      have above := inductionHypothesis fun other member => calm other (by simp [member])
      simp only [List.findSome?]
      rcases calm holder (by simp) with same | ⟨content, flags, own, settled⟩
      · rw [same]
        cases find holder with
        | some property => exact Or.inl rfl
        | none => exact above
      · rw [own]
        exact Or.inr ⟨content, flags, rfl, settled⟩

theorem Property.isBlank_of_like {before after : Property} (like : before.Like after) :
    after.isBlank = before.isBlank := by
  rcases like with rfl | ⟨_, _, _, rfl, rfl⟩ <;> rfl

theorem Property.like_trans {first second third : Property}
    (left : first.Like second) (right : second.Like third) : first.Like third := by
  rcases left with rfl | ⟨old, middle, flags, rfl, rfl⟩
  · exact right
  · rcases right with rfl | ⟨_, new, _, same, rfl⟩
    · exact Or.inr ⟨old, middle, flags, rfl, rfl⟩
    · cases same
      exact Or.inr ⟨old, new, flags, rfl, rfl⟩

/-! ## Steady graphs -/

namespace Steady

variable {guarded : List Key} {first second third : Graph}

theorem trans (left : first.Steady guarded second) (right : second.Steady guarded third) :
    first.Steady guarded third where
  toFollows := left.toFollows.trans right.toFollows
  classes := fun isClassKey inside =>
    (right.classes isClassKey (Nat.lt_of_lt_of_le inside left.size)).trans
      (left.classes isClassKey inside)
  calm := fun isGuarded inside =>
    (left.calm isGuarded inside).trans right.toFollows
      (right.calm isGuarded (Nat.lt_of_lt_of_le inside left.size))

end Steady

theorem Extends.steady {guarded : List Key} {before after : Graph}
    (extends_ : before.Extends after) : before.Steady guarded after where
  toFollows := extends_.follows
  classes := fun _ inside => extends_.ownAt? inside _
  calm := fun _ inside => Or.inl (extends_.ownAt? inside _)

/-- A store is steady if it does not touch what the classes of values are found by, and puts
no function under a guarded key. -/
theorem steady_store {guarded : List Key} {graph : Graph} {place : Nat} {key : Key}
    {content : Value} (accepted : graph.placement (.object place) key = .slot)
    (known : graph.Knows content) (noClass : key ∉ classKeys)
    (calm : key ∈ guarded → graph.isCallable content = false) :
    graph.Steady guarded (graph.store (.object place) key content) where
  toFollows := follows_store graph place key content
  classes := by
    intro other asked isClassKey _
    have different : asked ≠ key := by
      rintro rfl
      exact noClass isClassKey
    have notLength : asked ≠ .name "length" := by
      rintro rfl
      revert isClassKey
      decide
    exact ownAt?_store_of_ne_key graph place other content different notLength
  calm := by
    intro other asked isGuarded inside
    by_cases samePlace : other = place
    · subst samePlace
      by_cases sameKey : asked = key
      · subst sameKey
        obtain ⟨flags, _, own⟩ := ownAt?_store_self content accepted
        have follows := follows_store graph other asked content
        refine Or.inr ⟨content, flags, own, follows.knows known, ?_⟩
        rw [follows.isCallable known]
        exact calm isGuarded
      · by_cases length : asked = .name "length"
        · subst length
          have like := ownAt?_store_length graph other other content sameKey
          revert like
          generalize (graph.store (.object other) key content).ownAt? other (.name "length") = later
          generalize graph.ownAt? other (.name "length") = earlier
          rintro (⟨same | ⟨_, new, flags, _, same⟩⟩ | _)
          · exact Or.inl (congrArg some same)
          · exact Or.inr ⟨.number new, flags, congrArg some same,
              knows_of_isObject_eq_false rfl, rfl⟩
          · exact Or.inl rfl
        · exact Or.inl (ownAt?_store_of_ne_key graph other other content sameKey length)
    · exact Or.inl (ownAt?_store_of_ne_place graph key content asked samePlace)

/-- The classes of values are looked up with the same answers. -/
theorem Steady.find?_class {guarded : List Key} {before after : Graph}
    (steady : before.Steady guarded after) (closed : before.Closed) {value : Value} {key : Key}
    (known : before.Knows value) (isClassKey : key ∈ classKeys) :
    after.find? value key = before.find? value key :=
  find?_eq_of_asked (steady.ancestors closed known)
    fun _ isAsked => steady.classes isClassKey (closed.asked_lt known isAsked)

theorem Steady.own?_calm {guarded : List Key} {before after : Graph}
    (steady : before.Steady guarded after) {value : Value} {key : Key}
    (known : before.Knows value) (isGuarded : key ∈ guarded) :
    after.Calm (before.own? value key) (after.own? value key) := by
  cases value <;> try exact Or.inl rfl
  exact steady.calm isGuarded (knows_object.1 known)

/-- What is found under a guarded key is what was found before, or no function. -/
theorem Steady.find?_calm {guarded : List Key} {before after : Graph}
    (steady : before.Steady guarded after) (closed : before.Closed) {value : Value} {key : Key}
    (known : before.Knows value) (isGuarded : key ∈ guarded) :
    after.Calm (before.find? value key) (after.find? value key) := by
  have inherited : after.Calm (before.inherited? value key) (after.inherited? value key) := by
    unfold inherited?
    rw [steady.ancestors closed known]
    exact Calm.findSome? fun place member =>
      steady.calm isGuarded (closed.ancestors_lt value place member)
  unfold find?
  rcases steady.own?_calm known isGuarded with same | ⟨content, flags, own, settled⟩
  · rw [same]
    cases before.own? value key with
    | some property => exact Or.inl rfl
    | none => exact inherited
  · rw [own]
    exact Or.inr ⟨content, flags, rfl, settled⟩

/-! ## Growing graphs -/

theorem Extends.grows {guarded : List Key} {before after : Graph}
    (extends_ : before.Extends after) (closed : before.Closed) :
    before.Grows guarded after where
  toSteady := extends_.steady
  found := by
    intro value key property known found _
    exact ⟨property, by rw [extends_.find? closed known, found], Or.inl rfl⟩
  slots := by
    intro place object key property found slot _
    exact ⟨object, by rw [extends_.objects (lt_of_object? found), found], slot⟩

namespace Grows

variable {guarded : List Key} {first second third : Graph}

theorem trans (left : first.Grows guarded second) (right : second.Grows guarded third) :
    first.Grows guarded third where
  toSteady := left.toSteady.trans right.toSteady
  found := by
    intro value key property known found notBlank
    obtain ⟨middle, foundMiddle, likeMiddle⟩ := left.found known found notBlank
    obtain ⟨later, foundLater, likeLater⟩ := right.found (left.knows known) foundMiddle
      ((Property.isBlank_of_like likeMiddle).trans notBlank)
    exact ⟨later, foundLater, Property.like_trans likeMiddle likeLater⟩
  slots := by
    intro place object key property found slot notBlank
    obtain ⟨middle, foundMiddle, slotMiddle⟩ := left.slots found slot notBlank
    exact right.slots foundMiddle slotMiddle notBlank

theorem member_like (grows : first.Grows guarded second) {value : Value} {key : Key}
    (known : first.Knows value) (present : (first.member value key).isMissing = false) :
    Value.Like (first.member value key) (second.member value key) := by
  unfold member at present ⊢
  cases found : first.find? value key with
  | none => simp [found, Value.isMissing] at present
  | some property =>
      cases property with
      | accessor getter setter enumerable configurable =>
          simp [found, Value.isMissing] at present
      | data content flags =>
          rw [found] at present
          obtain ⟨later, foundLater, like⟩ := grows.found known found present
          rw [foundLater]
          rcases like with rfl | ⟨old, new, _, same, rfl⟩
          · exact Value.Like.refl content
          · cases same
            exact Or.inr ⟨old, new, rfl, rfl⟩

end Grows

/-- An object that lacks a member is not asked by lookups that find one. -/
theorem Closed.not_asked_of_lacks {graph : Graph} (closed : graph.Closed) {value : Value}
    {place : Nat} {key : Key} {property : Property} (lacks : graph.Lacks (.object place) key)
    (found : graph.find? value key = some property) (notBlank : property.isBlank = false) :
    place ∉ graph.asked value key := by
  intro isAsked
  rw [closed.find?_of_asked isAsked] at found
  rw [lacks property found] at notBlank
  cases notBlank

/-- Filling in a value where a lookup on the object finds nothing is growth. -/
theorem Closed.grows_store {guarded : List Key} {graph : Graph} (closed : graph.Closed)
    {place : Nat} {key : Key} {content : Value}
    (accepted : graph.placement (.object place) key = .slot)
    (lacks : graph.Lacks (.object place) key) (known : graph.Knows content)
    (noClass : key ∉ classKeys) (calm : key ∈ guarded → graph.isCallable content = false) :
    graph.Grows guarded (graph.store (.object place) key content) where
  toSteady := steady_store accepted known noClass calm
  found := by
    intro value other property _ found notBlank
    have notAsked : other = key → place ∉ graph.asked value other := by
      rintro rfl
      exact closed.not_asked_of_lacks lacks found notBlank
    have like := find?_store_like graph content notAsked
    rw [found] at like
    cases later : (graph.store (.object place) key content).find? value other <;>
      rw [later] at like
    · cases like
    · cases like with
      | some related => exact ⟨_, rfl, related⟩
  slots := by
    intro other object asked property found slot notBlank
    by_cases samePlace : other = place
    · subst samePlace
      obtain ⟨_, foundObject, ordinary, _⟩ := slot_of_placement accepted
      rw [found, Option.some.injEq] at foundObject
      subst foundObject
      refine ⟨object.store key content, by simp [object?_store, found], ?_⟩
      have different : asked ≠ key := by
        rintro rfl
        have own : graph.find? (.object other) asked = some property := by
          rw [Graph.find?, own?_of_object? found, Object.own?_eq_slot ordinary, slot]
        rw [lacks property own] at notBlank
        cases notBlank
      rw [Object.store_eq, Entries.get?_put_of_ne different]
      exact slot
    · exact ⟨object, by simp [object?_store, samePlace, found], slot⟩

/-- A store into an object that the earlier graph does not have is growth as well, whatever
it overwrites. -/
theorem Grows.store_new {guarded : List Key} {before after : Graph}
    (grows : before.Grows guarded after) (closed : before.Closed) {place : Nat}
    (new : before.objects.size ≤ place) (key : Key) (content : Value) :
    before.Grows guarded (after.store (.object place) key content) where
  toFollows := grows.toFollows.trans (follows_store after place key content)
  classes := by
    intro other asked isClassKey inside
    rw [ownAt?_store_of_ne_place after key content asked (by omega)]
    exact grows.classes isClassKey inside
  calm := by
    intro other asked isGuarded inside
    rw [ownAt?_store_of_ne_place after key content asked (by omega)]
    exact (grows.calm isGuarded inside).trans (follows_store after place key content)
      (Or.inl rfl)
  found := by
    intro value other property knows found notBlank
    obtain ⟨middle, foundMiddle, like⟩ := grows.found knows found notBlank
    have notAsked : place ∉ after.asked value other := by
      intro isAsked
      rcases List.mem_append.1 isAsked with itself | above
      · cases value <;> simp [Value.place?] at itself
        subst itself
        exact absurd (knows_object.1 knows) (by omega)
      · split at above
        · simp at above
        · have member := Closed.mem_upTo above
          rw [grows.ancestors closed knows] at member
          exact absurd (closed.ancestors_lt value place member) (by omega)
    have same := find?_store_of_not_asked after key content notAsked
    exact ⟨middle, by rw [same, foundMiddle], like⟩
  slots := by
    intro other object asked property found slot notBlank
    obtain ⟨later, foundLater, slotLater⟩ := grows.slots found slot notBlank
    have inside := lt_of_object? found
    exact ⟨later, by rw [object?_store, if_neg (by omega), foundLater], slotLater⟩

end ObjectPath.Graph
