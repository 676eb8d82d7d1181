import ObjectPath.Graph.Store
import Mathlib.Data.List.Basic
import Mathlib.Tactic.ByContra

/-!
# What lookups find, and what one store changes about it

A member of a value is found on the nearest object that has it: on the value itself or on
one of its ancestors.  The objects that are asked on the way, up to the one that answers,
are all that a lookup depends on.  So a store into one slot changes a lookup exactly when
its object is among those that are asked for that key.
-/

namespace ObjectPath

/-! ## Blank members -/

namespace Property

/-- Whether a member is a slot that holds a missing value. -/
def isBlank : Property → Bool
  | .data content _ => content.isMissing
  | .accessor _ _ _ _ => false

end Property

/-- What a store may make of a member that it does not write to: nothing, save that the length
of an array may grow. -/
def Property.Like (before after : Property) : Prop :=
  after = before ∨
    ∃ old new flags, before = .data (.number old) flags ∧ after = .data (.number new) flags

/-- The values that such members hold: the same, or both numbers. -/
def Value.Like (before after : Value) : Prop :=
  after = before ∨ ∃ old new, before = .number old ∧ after = .number new

namespace Value.Like

@[refl]
theorem refl (value : Value) : Value.Like value value :=
  Or.inl rfl

theorem trans {first second third : Value}
    (left : Value.Like first second) (right : Value.Like second third) :
    Value.Like first third := by
  rcases left with rfl | ⟨old, middle, rfl, rfl⟩
  · exact right
  · rcases right with rfl | ⟨_, new, _, rfl⟩
    · exact Or.inr ⟨old, middle, rfl, rfl⟩
    · exact Or.inr ⟨old, new, rfl, rfl⟩

theorem isMissing {before after : Value} (like : Value.Like before after) :
    after.isMissing = before.isMissing := by
  rcases like with rfl | ⟨_, _, rfl, rfl⟩ <;> rfl

/-- An object is like nothing but itself. -/
theorem eq_of_object {before after : Value} (like : Value.Like before after)
    (isObject : before.isObject = true) : after = before := by
  rcases like with same | ⟨_, _, rfl, _⟩
  · exact same
  · cases isObject

end Value.Like

/-! ## Slots of one object -/

/-- What an object is besides its slots after a store: an array reaches past the new
element. -/
def Body.reaching : Body → Key → Body
  | .items length resizable, .index position => .items (max length (position + 1)) resizable
  | body, _ => body

namespace Object

/-- The flags that a slot has after a store: its own, or those of a new slot. -/
def flagsAfter (object : Object) (key : Key) : Flags :=
  match Entries.get? object.slots key with
  | some (.data _ flags) => flags
  | _ => .plain

theorem enter_eq (object : Object) (key : Key) (property : Property) :
    object.enter key property =
      { object with
        body := object.body.reaching key
        slots := Entries.put object.slots key property } := by
  obtain ⟨parent, body, slots, extensible⟩ := object
  cases body <;> cases key <;> rfl

/-- A store enters one slot; an array may get longer by it. -/
theorem store_eq (object : Object) (key : Key) (content : Value) :
    object.store key content =
      { object with
        body := object.body.reaching key
        slots := Entries.put object.slots key (.data content (object.flagsAfter key)) } := by
  rw [← enter_eq]
  unfold store flagsAfter
  split <;> simp_all

theorem intrinsic?_reaching
    (object : Object) (key other : Key) (slots : List (Key × Property))
    (notLength : other ≠ .name "length") :
    Object.intrinsic? { object with body := object.body.reaching key, slots := slots } other =
      object.intrinsic? other := by
  obtain ⟨parent, body, slots, extensible⟩ := object
  cases body <;> cases key <;> simp [intrinsic?, Body.reaching, notLength]

theorem own?_store_of_ne
    (object : Object) {key other : Key} (content : Value)
    (different : other ≠ key) (notLength : other ≠ .name "length") :
    (object.store key content).own? other = object.own? other := by
  rw [store_eq, own?, own?, intrinsic?_reaching object key other _ notLength]
  simp only [Entries.get?_put_of_ne different]

theorem own?_store_length
    (object : Object) {key : Key} (content : Value) (different : .name "length" ≠ key) :
    Option.Rel Property.Like (object.own? (.name "length"))
      ((object.store key content).own? (.name "length")) := by
  have slots := Entries.get?_put_of_ne different object.slots
    (Property.data content (object.flagsAfter key))
  rw [store_eq]
  obtain ⟨parent, body, entries, extensible⟩ := object
  cases body with
  | items length resizable =>
      cases key <;> exact .some (Or.inr ⟨_, _, _, rfl, rfl⟩)
  | boxed inner =>
      cases inner with
      | string text => exact .some (Or.inl rfl)
      | _ =>
          simp only [own?, intrinsic?, Body.reaching, slots]
          cases Entries.get? entries (Key.name "length") with
          | none => exact .none
          | some property => exact .some (Or.inl rfl)
  | _ =>
      simp only [own?, intrinsic?, Body.reaching, slots]
      cases Entries.get? entries (Key.name "length") with
      | none => exact .none
      | some property => exact .some (Or.inl rfl)

/-- A member that an object has by what it is can be written only if it is the length of an
array. -/
theorem intrinsic?_eq_some
    {object : Object} {key : Key} {property : Property}
    (found : object.intrinsic? key = some property) :
    ∃ content flags, property = .data content flags ∧
      (flags.writable = true →
        key = .name "length" ∧ ∃ length resizable, object.body = .items length resizable) := by
  obtain ⟨parent, body, slots, extensible⟩ := object
  cases body with
  | items length resizable =>
      simp only [intrinsic?] at found
      split at found
      · cases found
        exact ⟨_, _, rfl, fun _ => ⟨by assumption, length, resizable, rfl⟩⟩
      · cases found
  | boxed content =>
      cases content with
      | string text =>
          simp only [intrinsic?, Graph.textOwn?] at found
          split at found
          · cases found
            exact ⟨_, _, rfl, by simp [Flags.fixed]⟩
          · obtain ⟨unit, _, rfl⟩ := Option.map_eq_some_iff.1 found
            exact ⟨_, _, rfl, by simp⟩
          · cases found
      | _ => simp [intrinsic?] at found
  | _ => simp [intrinsic?] at found

theorem own?_eq_slot
    {object : Object} {key : Key} (ordinary : object.intrinsic? key = none) :
    object.own? key = Entries.get? object.slots key := by
  rw [own?, ordinary]

end Object

namespace Graph

/-! ## Objects after a store -/

@[simp]
theorem size_store (graph : Graph) (target : Value) (key : Key) (content : Value) :
    (graph.store target key content).objects.size = graph.objects.size := by
  unfold store modifyTarget modifyObject
  split <;> simp

theorem object?_store
    (graph : Graph) (place other : Nat) (key : Key) (content : Value) :
    (graph.store (.object place) key content).object? other =
      if other = place then (graph.object? place).map (·.store key content)
      else graph.object? other := by
  unfold store modifyTarget modifyObject object?
  by_cases same : other = place
  · subst same
    simp [Array.getElem?_modify]
  · simp [Array.getElem?_modify, same, Ne.symm same]

/-! ## Own members after a store -/

theorem own?_of_object?
    {graph : Graph} {place : Nat} {object : Object} (found : graph.object? place = some object)
    (key : Key) :
    graph.own? (.object place) key = object.own? key := by
  simp [own?, ownAt?, found]

theorem isLength_of_object?
    {graph : Graph} {place : Nat} {object : Object} (found : graph.object? place = some object)
    {length : Nat} {resizable : Bool} (array : object.body = .items length resizable) :
    graph.isLength (.object place) (.name "length") = true := by
  obtain ⟨parent, body, slots, extensible⟩ := object
  subst array
  simp [isLength, isArray, arrayLength?, objectOf?, Value.place?, found]

/-- An assignment goes into a slot only if the value has that slot and it can be written,
or if it has no such member and can be given one. -/
theorem placement_eq_slot
    {graph : Graph} {target : Value} {key : Key}
    (accepted : graph.placement target key = .slot) :
    (∃ content flags, graph.own? target key = some (.data content flags) ∧
        flags.writable = true ∧ graph.isLength target key = false) ∨
      (graph.own? target key = none ∧ graph.isExtensible target = true) := by
  unfold placement at accepted
  split at accepted
  case h_1 content flags own =>
    refine Or.inl ⟨content, flags, own, ?_⟩
    cases writable : flags.writable <;> cases length : graph.isLength target key <;>
      simp_all
  case h_4 absent =>
    refine Or.inr ⟨absent, ?_⟩
    cases extensible : graph.isExtensible target with
    | true => rfl
    | false =>
        rw [extensible] at accepted
        split at accepted <;> simp_all
        split at accepted <;> cases accepted
  all_goals cases accepted

/-- The same in terms of the object's own slots: the member is none that the object has by
what it is. -/
theorem slot_of_placement
    {graph : Graph} {place : Nat} {key : Key}
    (accepted : graph.placement (.object place) key = .slot) :
    ∃ object, graph.object? place = some object ∧ object.intrinsic? key = none ∧
      ((∃ content flags, Entries.get? object.slots key = some (.data content flags) ∧
          flags.writable = true) ∨
        (Entries.get? object.slots key = none ∧ object.extensible = true)) := by
  cases found : graph.object? place with
  | none =>
      rcases placement_eq_slot accepted with ⟨content, flags, own, _⟩ | ⟨_, extensible⟩
      · simp [own?, ownAt?, found] at own
      · simp [isExtensible, objectOf?, Value.place?, found] at extensible
  | some object =>
      refine ⟨object, rfl, ?_⟩
      have reach : graph.isExtensible (.object place) = object.extensible := by
        simp [isExtensible, objectOf?, Value.place?, found]
      have ownSlot := placement_eq_slot accepted
      rw [own?_of_object? found key, reach] at ownSlot
      cases intrinsic : object.intrinsic? key with
      | some property =>
          exfalso
          obtain ⟨content, flags, rfl, ofLength⟩ := Object.intrinsic?_eq_some intrinsic
          rw [Object.own?, intrinsic] at ownSlot
          rcases ownSlot with ⟨_, _, same, writable, notLength⟩ | ⟨absent, _⟩
          · cases same
            obtain ⟨rfl, length, resizable, array⟩ := ofLength writable
            rw [isLength_of_object? found array] at notLength
            cases notLength
          · cases absent
      | none =>
          rw [Object.own?_eq_slot intrinsic] at ownSlot
          refine ⟨rfl, ?_⟩
          rcases ownSlot with ⟨content, flags, own, writable, _⟩ | absent
          · exact Or.inl ⟨content, flags, own, writable⟩
          · exact Or.inr absent

/-! ## Parents -/

theorem object?_store_parent
    (graph : Graph) (place other : Nat) (key : Key) (content : Value) :
    ((graph.store (.object place) key content).object? other).map (·.parent) =
      (graph.object? other).map (·.parent) := by
  rw [object?_store]
  split
  · subst other
    cases graph.object? place <;> simp [Object.store_eq]
  · rfl

theorem parent_store
    (graph : Graph) (place other : Nat) (key : Key) (content : Value) :
    ((graph.store (.object place) key content).object? other).bind (·.parent) =
      (graph.object? other).bind (·.parent) := by
  have parents := object?_store_parent graph place other key content
  cases before : graph.object? other <;>
    cases after : (graph.store (.object place) key content).object? other <;>
    simp_all

theorem parentOf_store
    (graph : Graph) (place : Nat) (key : Key) (content value : Value) :
    (graph.store (.object place) key content).parentOf value = graph.parentOf value := by
  cases value <;> simp only [parentOf]
  exact parent_store graph place _ key content

theorem placesFrom_store
    (graph : Graph) (place : Nat) (key : Key) (content : Value) (limit : Nat)
    (start : Option Nat) :
    (graph.store (.object place) key content).placesFrom limit start =
      graph.placesFrom limit start := by
  induction limit generalizing start with
  | zero => rfl
  | succ limit inductionHypothesis =>
      cases start with
      | none => rfl
      | some first =>
          simp only [placesFrom, parent_store, inductionHypothesis]

@[simp]
theorem ancestors_store
    (graph : Graph) (place : Nat) (key : Key) (content value : Value) :
    (graph.store (.object place) key content).ancestors value = graph.ancestors value := by
  rw [ancestors, ancestors, size_store, parentOf_store, placesFrom_store]

/-! ## Own members after a store -/

theorem ownAt?_store_of_ne_place
    (graph : Graph) {place other : Nat} (key : Key) (content : Value) (asked : Key)
    (different : other ≠ place) :
    (graph.store (.object place) key content).ownAt? other asked = graph.ownAt? other asked := by
  rw [ownAt?, ownAt?, object?_store, if_neg different]

theorem ownAt?_store_of_ne_key
    (graph : Graph) (place other : Nat) {key asked : Key} (content : Value)
    (different : asked ≠ key) (notLength : asked ≠ .name "length") :
    (graph.store (.object place) key content).ownAt? other asked = graph.ownAt? other asked := by
  rw [ownAt?, ownAt?, object?_store]
  split
  · subst other
    cases graph.object? place with
    | none => rfl
    | some object => exact Object.own?_store_of_ne object content different notLength
  · rfl

/-- After a store that was accepted the object has the slot, with the new content. -/
theorem ownAt?_store_self
    {graph : Graph} {place : Nat} {key : Key} (content : Value)
    (accepted : graph.placement (.object place) key = .slot) :
    ∃ flags, flags.writable = true ∧
      (graph.store (.object place) key content).ownAt? place key = some (.data content flags) := by
  obtain ⟨object, found, ordinary, slot⟩ := slot_of_placement accepted
  refine ⟨object.flagsAfter key, ?_, ?_⟩
  · unfold Object.flagsAfter
    rcases slot with ⟨_, _, own, writable⟩ | ⟨absent, _⟩
    · rw [own]
      exact writable
    · rw [absent]
      rfl
  · have later : Object.intrinsic? (object.store key content) key = none := by
      by_cases length : key = .name "length"
      · subst length
        rw [Object.store_eq]
        obtain ⟨parent, body, slots, extensible⟩ := object
        cases body with
        | items length resizable => simp [Object.intrinsic?] at ordinary
        | _ => exact ordinary
      · rw [Object.store_eq, Object.intrinsic?_reaching object key key _ length]
        exact ordinary
    simp only [ownAt?, object?_store, if_pos, found, Option.map_some, Option.bind_some]
    rw [Object.own?_eq_slot later, Object.store_eq]
    exact Entries.get?_put_self _ _ _

/-! ## The objects that a lookup asks -/

/-- The places of a list up to the first one that has a member. -/
def upTo (has : Nat → Bool) : List Nat → List Nat
  | [] => []
  | place :: rest => if has place then [place] else place :: upTo has rest

/-- The objects that a lookup asks: the value itself if it is an object, and without an own
member its ancestors up to the first one that has the member. -/
def asked (graph : Graph) (value : Value) (key : Key) : List Nat :=
  value.place?.toList ++
    if (graph.own? value key).isSome then []
    else upTo (fun place => (graph.ownAt? place key).isSome) (graph.ancestors value)

theorem findSome?_eq_of_upTo
    {find later : Nat → Option Property} (places : List Nat)
    (same : ∀ place ∈ upTo (fun place => (find place).isSome) places,
      later place = find place) :
    places.findSome? later = places.findSome? find := by
  induction places with
  | nil => rfl
  | cons place rest inductionHypothesis =>
      have first : later place = find place := by
        apply same
        unfold upTo
        split <;> simp
      cases own : find place with
      | some property => simp [List.findSome?, first, own]
      | none =>
          simp only [List.findSome?, first, own]
          apply inductionHypothesis
          intro other member
          apply same
          simp [upTo, own, member]

theorem findSome?_of_mem_upTo
    {find later : Nat → Option Property} {places : List Nat} {place : Nat}
    {property : Property}
    (member : place ∈ upTo (fun place => (find place).isSome) places)
    (others : ∀ other, other ≠ place → later other = find other)
    (found : later place = some property) :
    places.findSome? later = some property := by
  induction places with
  | nil => simp [upTo] at member
  | cons first rest inductionHypothesis =>
      by_cases here : first = place
      · subst here
        simp [List.findSome?, found]
      · cases own : find first with
        | some other =>
            simp [upTo, own] at member
            exact absurd member.symm here
        | none =>
            simp only [List.findSome?, others first here, own]
            apply inductionHypothesis
            simpa [upTo, own, Ne.symm here] using member

/-- A lookup depends only on the own members of the objects that it asks. -/
theorem find?_eq_of_asked
    {before after : Graph} {value : Value} {key : Key}
    (ancestors : after.ancestors value = before.ancestors value)
    (same : ∀ place ∈ before.asked value key,
      after.ownAt? place key = before.ownAt? place key) :
    after.find? value key = before.find? value key := by
  have own : after.own? value key = before.own? value key := by
    cases value <;> simp only [own?]
    case object place =>
      exact same place (by simp [asked, Value.place?])
  rw [find?, find?, own]
  cases found : before.own? value key with
  | some property => rfl
  | none =>
      simp only [inherited?, ancestors]
      apply findSome?_eq_of_upTo
      intro place member
      exact same place (by simp [asked, found, member])

/-- An object that is asked answers a lookup as soon as it has the member itself. -/
theorem find?_of_mem_asked
    {before after : Graph} {value : Value} {key : Key} {place : Nat} {property : Property}
    (ancestors : after.ancestors value = before.ancestors value)
    (member : place ∈ before.asked value key)
    (others : ∀ other, other ≠ place → after.ownAt? other key = before.ownAt? other key)
    (found : after.ownAt? place key = some property) :
    after.find? value key = some property := by
  by_cases itself : value = .object place
  · subst itself
    simp [find?, own?, found]
  · have own : after.own? value key = before.own? value key := by
      cases value <;> simp only [own?]
      case object other =>
        exact others other (fun same => itself (same ▸ rfl))
    cases absent : before.own? value key with
    | some _ =>
        exfalso
        cases value <;> simp_all [asked, Value.place?]
    | none =>
        have below : place ∈ upTo (fun place => (before.ownAt? place key).isSome)
            (before.ancestors value) := by
          cases value with
          | object other =>
              have different : place ≠ other := fun same => itself (same ▸ rfl)
              simpa [asked, Value.place?, absent, different] using member
          | _ => simpa [asked, Value.place?, absent] using member
        rw [find?, own, absent]
        simp only [inherited?, ancestors]
        exact findSome?_of_mem_upTo below others found

/-! ## Lookups after a store -/

theorem find?_store_of_ne
    (graph : Graph) (place : Nat) {key other : Key} (content value : Value)
    (different : other ≠ key) (notLength : other ≠ .name "length") :
    (graph.store (.object place) key content).find? value other = graph.find? value other :=
  find?_eq_of_asked (ancestors_store graph place key content value)
    fun other _ => ownAt?_store_of_ne_key graph place other content different notLength

theorem find?_store_of_not_asked
    (graph : Graph) {place : Nat} (key : Key) (content : Value) {value : Value} {other : Key}
    (notAsked : place ∉ graph.asked value other) :
    (graph.store (.object place) key content).find? value other = graph.find? value other :=
  find?_eq_of_asked (ancestors_store graph place key content value)
    fun _ member => ownAt?_store_of_ne_place graph key content other
      fun same => notAsked (same ▸ member)

theorem find?_store_of_asked
    {graph : Graph} {place : Nat} {key : Key} (content : Value) {value : Value}
    (accepted : graph.placement (.object place) key = .slot)
    (isAsked : place ∈ graph.asked value key) :
    ∃ flags, (graph.store (.object place) key content).find? value key =
      some (.data content flags) := by
  obtain ⟨flags, _, own⟩ := ownAt?_store_self content accepted
  exact ⟨flags, find?_of_mem_asked (ancestors_store graph place key content value) isAsked
    (fun other different => ownAt?_store_of_ne_place graph key content key different) own⟩

theorem ownAt?_store_length
    (graph : Graph) (place other : Nat) {key : Key} (content : Value)
    (different : .name "length" ≠ key) :
    Option.Rel Property.Like (graph.ownAt? other (.name "length"))
      ((graph.store (.object place) key content).ownAt? other (.name "length")) := by
  rw [ownAt?, ownAt?, object?_store]
  split
  · subst other
    cases graph.object? place with
    | none => exact .none
    | some object => exact Object.own?_store_length object content different
  · cases (graph.object? other).bind (·.own? (.name "length")) with
    | none => exact .none
    | some property => exact .some (Or.inl rfl)

theorem findSome?_rel
    {find later : Nat → Option Property}
    (like : ∀ place, Option.Rel Property.Like (find place) (later place)) (places : List Nat) :
    Option.Rel Property.Like (places.findSome? find) (places.findSome? later) := by
  induction places with
  | nil => exact .none
  | cons place rest inductionHypothesis =>
      simp only [List.findSome?]
      cases before : find place <;> cases after : later place <;>
        have first := like place <;> rw [before, after] at first
      · exact inductionHypothesis
      · cases first
      · cases first
      · exact first

/-- A store leaves alone what other keys find, and what lookups of its own key find that do
not ask its object; only lengths may grow. -/
theorem find?_store_like
    (graph : Graph) {place : Nat} {key : Key} (content : Value) {value : Value} {other : Key}
    (untouched : other = key → place ∉ graph.asked value other) :
    Option.Rel Property.Like (graph.find? value other)
      ((graph.store (.object place) key content).find? value other) := by
  have reflexive : ∀ found : Option Property, Option.Rel Property.Like found found := by
    intro found
    cases found with
    | none => exact .none
    | some property => exact .some (Or.inl rfl)
  by_cases same : other = key
  · rw [find?_store_of_not_asked graph key content (untouched same)]
    exact reflexive _
  · by_cases length : other = .name "length"
    · subst length
      have own : Option.Rel Property.Like (graph.own? value (.name "length"))
          ((graph.store (.object place) key content).own? value (.name "length")) := by
        cases value <;> try exact reflexive _
        exact ownAt?_store_length graph place _ content same
      have above := findSome?_rel
        (fun asked => ownAt?_store_length graph place asked content same) (graph.ancestors value)
      rw [find?, find?, inherited?, inherited?, ancestors_store]
      cases before : graph.own? value (.name "length") <;>
        cases after : (graph.store (.object place) key content).own? value (.name "length") <;>
        rw [before, after] at own
      · exact above
      · cases own
      · cases own
      · exact own
    · rw [find?_store_of_ne graph place content value same length]
      exact reflexive _

/-! ## Contents -/

/-- What a value gives for a key: the content of the slot that it finds. -/
def member (graph : Graph) (value : Value) (key : Key) : Value :=
  match graph.find? value key with
  | some (.data content _) => content
  | _ => .undefined

/-- What a value gives for a key unless it has to be computed. -/
def look? (graph : Graph) (value : Value) (key : Key) : Option Value :=
  match graph.find? value key with
  | none => some .undefined
  | some (.data content _) => some content
  | some (.accessor _ _ _ _) => none

theorem member_of_look?
    {graph : Graph} {value content : Value} {key : Key}
    (looked : graph.look? value key = some content) :
    graph.member value key = content := by
  unfold look? at looked
  unfold member
  split at looked <;> rename_i found <;> rw [found] <;> cases looked <;> rfl

theorem member_of_find?
    {graph : Graph} {value content : Value} {key : Key} {flags : Flags}
    (found : graph.find? value key = some (.data content flags)) :
    graph.member value key = content := by
  rw [member, found]

theorem member_like_of_rel
    {before after : Graph} {value : Value} {key : Key}
    (like : Option.Rel Property.Like (before.find? value key) (after.find? value key)) :
    Value.Like (before.member value key) (after.member value key) := by
  unfold member
  cases earlier : before.find? value key <;> cases later : after.find? value key <;>
    rw [earlier, later] at like
  · cases like
  · cases like
  · cases like with
    | some related =>
        rcases related with rfl | ⟨old, new, flags, rfl, rfl⟩
        · exact Value.Like.refl _
        · exact Or.inr ⟨old, new, rfl, rfl⟩

/-- Numbers have the same members. -/
theorem find?_of_like
    (graph : Graph) {value other : Value} (like : Value.Like value other) (key : Key) :
    graph.find? other key = graph.find? value key := by
  rcases like with rfl | ⟨_, _, rfl, rfl⟩ <;> rfl

end Graph

end ObjectPath
