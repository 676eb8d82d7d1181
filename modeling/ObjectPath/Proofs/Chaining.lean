import ObjectPath.Proofs.Elements
import ObjectPath.Proofs.Garden

/-!
# Chains of new arrays

New arrays that hold each other are told from the slot that holds the first one: each has the next
as its only element, and is younger than it.  A chain gets longer at its end, by a store into the
empty array that it ends with; all that the store needs of that array is that nothing is in the way
of a new element.
-/

namespace ObjectPath

open Graph

/-! ## Slots to be filled -/

/-- Whether a member is a slot that can be given another value. -/
def Property.isWritable : Property → Bool
  | .data _ flags => flags.writable
  | .accessor _ _ _ _ => false

namespace Graph

/-- An object can be given a new slot: it has none under the key, and inherits nothing there that
would take the value instead or refuse it. -/
structure Vacant (graph : Graph) (place : Nat) (key : Key) : Prop where
  own : graph.own? (.object place) key = none
  extensible : graph.isExtensible (.object place) = true
  inherited : ∀ property, graph.inherited? (.object place) key = some property →
    property.isWritable = true

variable {graph later : Graph} {place holder : Nat} {key asked : Key} {first : Value}

theorem Vacant.slot (vacant : graph.Vacant place key) :
    graph.placement (.object place) key = .slot := by
  unfold placement
  rw [vacant.own]
  cases inherited : graph.inherited? (.object place) key with
  | none => simp [vacant.extensible]
  | some property =>
      have writable := vacant.inherited property inherited
      cases property with
      | data content flags =>
          have same : flags.writable = true := writable
          simp [same, vacant.extensible]
      | accessor => cases writable

/-- If every object that is searched has what it had, or a writable slot, then what is found is what
was found, or a writable slot. -/
theorem findSome?_or_writable {find later : Nat → Option Property} {places : List Nat}
    (each : ∀ place ∈ places, later place = find place ∨
      ∃ property, later place = some property ∧ property.isWritable = true) :
    places.findSome? later = places.findSome? find ∨
      ∃ property, places.findSome? later = some property ∧ property.isWritable = true := by
  induction places with
  | nil => exact Or.inl rfl
  | cons place rest inductionHypothesis =>
      have above := inductionHypothesis fun other member => each other (List.mem_cons_of_mem _ member)
      rw [List.findSome?_cons, List.findSome?_cons]
      rcases each place List.mem_cons_self with same | ⟨property, found, writable⟩
      · rw [same]
        cases find place with
        | some property => exact Or.inl rfl
        | none => exact above
      · rw [found]
        exact Or.inr ⟨property, rfl, writable⟩

/-- What an old object has after a store, as long as only new objects were touched besides. -/
theorem own?_of_stored (accepted : graph.placement (.object holder) asked = .slot)
    (stored : (graph.store (.object holder) asked first).Extends later)
    (inside : place < graph.objects.size) (notLength : key ≠ .name "length") :
    later.ownAt? place key = graph.ownAt? place key ∨
      ∃ property, later.ownAt? place key = some property ∧ property.isWritable = true := by
  have kept := stored.ownAt? (by rwa [size_store]) key
  by_cases different : key = asked
  · subst different
    by_cases apart : place = holder
    · subst apart
      obtain ⟨flags, writable, own⟩ := ownAt?_store_self first accepted
      exact Or.inr ⟨_, kept.trans own, writable⟩
    · exact Or.inl (kept.trans (ownAt?_store_of_ne_place graph key first key apart))
  · exact Or.inl (kept.trans (ownAt?_store_of_ne_key graph holder place first different notLength))

/-- A slot that is to be filled stays so when another object is given one. -/
theorem Vacant.of_stored (vacant : graph.Vacant place key) (closed : graph.Closed)
    (accepted : graph.placement (.object holder) asked = .slot)
    (stored : (graph.store (.object holder) asked first).Extends later)
    (inside : place < graph.objects.size) (apart : place ≠ holder)
    (notLength : key ≠ .name "length") : later.Vacant place key where
  own := by
    have kept := stored.ownAt? (by rwa [size_store]) key
    exact kept.trans ((ownAt?_store_of_ne_place graph asked first key apart).trans vacant.own)
  extensible := by
    have follows := (follows_store graph holder asked first).trans stored.follows
    rw [follows.isExtensible (knows_object.2 inside)]
    exact vacant.extensible
  inherited := by
    intro property inherited
    have follows := (follows_store graph holder asked first).trans stored.follows
    rw [inherited?, follows.ancestors closed (knows_object.2 inside)] at inherited
    have each := findSome?_or_writable fun above
        (isAbove : above ∈ graph.ancestors (.object place)) =>
      own?_of_stored accepted stored (closed.ancestors_lt _ above isAbove) notLength
    rw [inherited] at each
    rcases each with same | ⟨found, isFound, writable⟩
    · exact vacant.inherited property same.symm
    · cases isFound
      exact writable

/-! ## New arrays -/

/-- The graph with one more empty array. -/
def withArray (graph : Graph) : Graph :=
  graph.adding (blankObject .array (.items 0 true))

theorem Closed.withArray (closed : graph.Closed) : graph.withArray.Closed := by
  refine closed.adding ⟨?_, ?_⟩
  · rintro _ ⟨⟩
    exact closed.shared .array
  · intro key content flags own
    obtain ⟨_, number, _, same⟩ := Scene.own?_emptyArray _ _ own
    cases same
    exact knows_of_isObject_eq_false rfl

/-- A new array can be given an element, if what all arrays share leaves the index free. -/
theorem vacant_withArray (closed : graph.Closed) (index : Nat)
    (free : ∀ property,
      graph.find? (.object BuiltinClass.array.sharedPlace) (.ofIndex index) = some property →
        property.isWritable = true) :
    graph.withArray.Vacant graph.objects.size (.ofIndex index) := by
  have own : graph.withArray.own? (.object graph.objects.size) (.ofIndex index) = none :=
    (ownAt?_adding_self graph _ _).trans (own?_emptyArray_ofIndex index)
  refine ⟨own, ?_, fun property inherited => free property ?_⟩
  · simp only [isExtensible, objectOf?, Value.place?, Option.bind_some]
    rw [withArray, object?_adding_self]
    rfl
  · rw [← closed.find?_adding (show (blankObject .array (.items 0 true)).parent = some _ from rfl)
      (closed.shared .array) (own?_emptyArray_ofIndex index)]
    change graph.withArray.find? _ _ = _
    rw [find?, own]
    exact inherited

/-! ## Stores elsewhere -/

theorem own?_store_of_ne {value : Value} (stored : Value) (apart : value ≠ .object place)
    (other : Key) :
    (graph.store (.object place) key stored).own? value other = graph.own? value other := by
  cases value with
  | object here =>
      exact ownAt?_store_of_ne_place graph key stored other fun same => apart (same ▸ rfl)
  | _ => rfl

theorem arrayLength?_store_of_ne (stored : Value) (apart : holder ≠ place) :
    (graph.store (.object place) key stored).arrayLength? (.object holder) =
      graph.arrayLength? (.object holder) := by
  simp only [arrayLength?, objectOf?, Value.place?, Option.bind_some, object?_store, if_neg apart]

/-- New objects stay new when an old one is given a slot. -/
theorem Extends.store_both (extends_ : graph.Extends later) (inside : holder < graph.objects.size)
    (key : Key) (first : Value) :
    (graph.store (.object holder) key first).Extends (later.store (.object holder) key first) where
  size := by
    rw [size_store, size_store]
    exact extends_.size
  objects := by
    intro place old
    rw [size_store] at old
    rw [object?_store, object?_store, extends_.objects inside, extends_.objects old]
  declared := by
    rw [(follows_store later holder key first).declared, extends_.declared,
      (follows_store graph holder key first).declared]

/-! ## Chains -/

/-- An array has one element and nothing else that arrays do not have. -/
structure HasOnly (graph : Graph) (place index : Nat) : Prop where
  length : graph.arrayLength? (.object place) = some (index + 1)
  others : ∀ other, other ≠ .index index → other ≠ .name "length" →
    graph.own? (.object place) other = none

/-- A slot holds an array whose only element, under the first index, is an array whose only element
is the next, and so on down to a value under the last index.  Each array is older than the one that
holds it, and none is older than the floor. -/
inductive Chained (graph : Graph) (floor : Nat) :
    Nat → Value → Key → List Nat → Value → Prop
  | last {ceiling : Nat} {holder : Value} {key : Key} {value : Value} {flags : Flags} :
      graph.own? holder key = some (.data value flags) →
        Chained graph floor ceiling holder key [] value
  | array {ceiling place index : Nat} {holder : Value} {key : Key} {rest : List Nat} {value : Value}
      {flags : Flags} :
      graph.own? holder key = some (.data (.object place) flags) → floor ≤ place →
        place < ceiling → graph.HasOnly place index →
          Chained graph floor place (.object place) (.index index) rest value →
            Chained graph floor ceiling holder key (index :: rest) value

/-- The first value of a chain is in the slot that it starts from. -/
theorem Chained.held {floor ceiling : Nat} {holder : Value} {indices : List Nat} {value : Value}
    (chained : graph.Chained floor ceiling holder key indices value) :
    ∃ content flags, graph.own? holder key = some (.data content flags) := by
  cases chained with
  | last own => exact ⟨_, _, own⟩
  | array own => exact ⟨_, _, own⟩

theorem hasOnly_store {index : Nat} (value : Value)
    (accepted : graph.placement (.object place) (.index index) = .slot)
    (empty : graph.arrayLength? (.object place) = some 0)
    (bare : ∀ other, other ≠ .name "length" → graph.own? (.object place) other = none) :
    (graph.store (.object place) (.index index) value).HasOnly place index where
  length := by
    rw [arrayLength?_store, empty]
    simp
  others := fun other different notLength =>
    ((puts_store value accepted).others other different notLength).trans (bare other notLength)

/-- A chain to an empty array, which is older than the others, goes on with the value that is stored
there. -/
theorem Chained.snoc {floor ceiling low index : Nat} {holder value : Value} {indices : List Nat}
    (chained : graph.Chained floor ceiling holder key indices (.object place))
    (accepted : graph.placement (.object place) (.index index) = .slot)
    (empty : graph.arrayLength? (.object place) = some 0)
    (bare : ∀ other, other ≠ .name "length" → graph.own? (.object place) other = none)
    (apart : holder ≠ .object place) (above : low ≤ place) (below : place < floor)
    (under : place < ceiling) :
    (graph.store (.object place) (.index index) value).Chained low ceiling holder key
      (indices ++ [index]) value := by
  generalize reached : Value.object place = final at chained
  induction chained with
  | last own =>
      subst reached
      obtain ⟨flags, stored⟩ := (puts_store value accepted).stored
      exact .array ((own?_store_of_ne value apart _).trans own) above under
        (hasOnly_store value accepted empty bare) (.last stored)
  | @array ceiling held first holder key rest _ flags own high inside only _ inductionHypothesis =>
      subst reached
      have different : held ≠ place := by omega
      refine .array ((own?_store_of_ne value apart _).trans own) (by omega) inside
        ⟨?_, fun other notFirst notLength => ?_⟩
        (inductionHypothesis (fun same => different (Value.object.inj same)) (by omega) rfl)
      · rw [arrayLength?_store_of_ne value different]
        exact only.length
      · rw [own?_store_of_ne value fun same => different (Value.object.inj same)]
        exact only.others other notFirst notLength

end Graph

end ObjectPath
