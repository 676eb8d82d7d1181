import ObjectPath.Proofs.Approach
import ObjectPath.Proofs.Checking
import ObjectPath.Proofs.Grammar

/-!
# Elements that are stored

A write of an array node stores its value under the index of the node, in the array that it
reaches.  Below the limit of element numbers that makes the value an element: the array gets longer
if it has to, and its other elements and holes stay as they are.  Past the limit the index is a name
like any other, and the value becomes no element, although the write says that it was done.
-/

namespace ObjectPath

open Graph

namespace Graph

/-! ## Stores of elements -/

/-- An assignment to a value under a key is left to a setter. -/
def FindsSetter (graph : Graph) (target : Value) (key : Key) : Prop :=
  ∃ getter setter enumerable configurable,
    graph.find? target key = some (.accessor getter (some setter) enumerable configurable)

/-- Between two graphs a value was put under a key of an object, and all other members of the object
are what they were, save the length of an array. -/
structure Puts (before later : Graph) (target : Value) (key : Key) (value : Value) : Prop where
  stored : ∃ flags, later.own? target key = some (.data value flags)
  others : ∀ other, other ≠ key → other ≠ .name "length" →
    later.own? target other = before.own? target other

/-- Between two graphs an array was given an element: it holds the value under the index, is as long
as it was or ends with the new element, and has the other elements and holes that it had. -/
structure StoresElement (before later : Graph) (array : Value) (index : Nat) (value : Value) :
    Prop extends Puts before later array (.index index) value where
  length : ∃ length, before.arrayLength? array = some length ∧
    later.arrayLength? array = some (max length (index + 1))

/-- Between two graphs an array was given a slot that is no element: it has the elements, the holes
and the length that it had. -/
structure NamesElement (before later : Graph) (array : Value) (index : Nat) (value : Value) :
    Prop extends Puts before later array (.name (Nat.repr index)) value where
  length : later.arrayLength? array = before.arrayLength? array

theorem puts_store {graph : Graph} {place : Nat} {key : Key} (value : Value)
    (slot : graph.placement (.object place) key = .slot) :
    graph.Puts (graph.store (.object place) key value) (.object place) key value := by
  obtain ⟨flags, _, own⟩ := ownAt?_store_self value slot
  exact ⟨⟨flags, own⟩, fun other different notLength =>
    ownAt?_store_of_ne_key graph place place value different notLength⟩

theorem arrayLength?_store (graph : Graph) (place : Nat) (key : Key) (value : Value) :
    (graph.store (.object place) key value).arrayLength? (.object place) =
      (graph.arrayLength? (.object place)).map fun length =>
        match key with
        | .index index => max length (index + 1)
        | .name _ => length := by
  simp only [arrayLength?, objectOf?, Value.place?, Option.bind_some, object?_store, if_true]
  cases graph.object? place with
  | none => rfl
  | some object =>
      obtain ⟨parent, body, slots, extensible⟩ := object
      simp only [Option.map_some, Object.store_eq]
      cases body <;> cases key <;> rfl

/-- An assignment that is left to a setter finds one. -/
theorem findsSetter_of_placement {graph : Graph} {target : Value} {key : Key} {setter : Nat}
    (placed : graph.placement target key = .setter setter) : graph.FindsSetter target key := by
  unfold placement at placed
  unfold FindsSetter find?
  cases own : graph.own? target key with
  | some property =>
      rw [own] at placed
      cases property with
      | data content flags =>
          dsimp only at placed
          split at placed
          · split at placed <;> cases placed
          · cases placed
      | accessor getter setter? enumerable configurable =>
          cases setter? with
          | none => cases placed
          | some other => exact ⟨_, _, _, _, rfl⟩
  | none =>
      rw [own] at placed
      cases inherited : graph.inherited? target key with
      | none =>
          rw [inherited] at placed
          dsimp only at placed
          split at placed <;> cases placed
      | some property =>
          rw [inherited] at placed
          cases property with
          | data content flags =>
              dsimp only at placed
              split at placed
              · cases placed
              · split at placed <;> cases placed
          | accessor getter setter? enumerable configurable =>
              cases setter? with
              | none => cases placed
              | some other => exact ⟨_, _, _, _, rfl⟩

/-- Only the length of an array is assigned as one. -/
theorem isLength_of_placement {graph : Graph} {target : Value} {key : Key}
    (placed : graph.placement target key = .length) : graph.isLength target key = true := by
  unfold placement at placed
  split at placed
  · split at placed
    · split at placed
      · assumption
      · cases placed
    · cases placed
  · cases placed
  · cases placed
  · split at placed
    · cases placed
    · cases placed
    · split at placed
      · cases placed
      · split at placed <;> cases placed
    · split at placed <;> cases placed

end Graph

section Stores

variable {graph later : Graph} {place : Nat} {key : Key} {value : Value}

/-- An assignment that is not left to a setter and does not fail goes into a slot. -/
theorem Run.slot_of_assignStrictly (plain : ¬ graph.FindsSetter (.object place) key)
    (notLength : graph.isLength (.object place) key = false)
    (ended : Run.assignStrictly perform (.object place) key value graph = .ok () later) :
    graph.placement (.object place) key = .slot ∧
      later = graph.store (.object place) key value := by
  cases placed : graph.placement (.object place) key with
  | slot =>
      rw [Run.assignStrictly_of_slot value placed] at ended
      cases ended
      exact ⟨rfl, rfl⟩
  | length =>
      rw [isLength_of_placement placed] at notLength
      cases notLength
  | setter setter => exact absurd (findsSetter_of_placement placed) plain
  | readOnly =>
      obtain ⟨fault, failed⟩ := Run.assignStrictly_of_refused value (Or.inl placed)
      rw [failed] at ended
      cases ended
  | notExtensible =>
      obtain ⟨fault, failed⟩ := Run.assignStrictly_of_refused value (Or.inr placed)
      rw [failed] at ended
      cases ended
  | noSetter =>
      have ended' : Run.assignObject perform (.object place) key value graph = .ok () later := ended
      unfold Run.assignObject at ended'
      rw [bind_get] at ended'
      obtain ⟨took, middle, assigned, rest⟩ := ok_of_bind ended'
      unfold Run.assignWith at assigned
      rw [bind_get, placed] at assigned
      cases assigned
      rw [placed] at rest
      cases rest

end Stores

namespace Node

/-! ## Writes of array nodes -/

variable {resolver : Resolver} {arguments : Option ArgumentMap} {factory : Option Factory}
  {position : Position}

/-- The array that a write of an array node reaches: the one that is there, or a new one that was
written in its place.  None is reached where no array is there and none is made. -/
def reach (resolver : Resolver) (arguments : Option ArgumentMap) (factory : Option Factory)
    (position : Position) (text : String) : Option Node → Run (Option Value)
  | none =>
      match position with
      | .onValue target => pure (some target)
      | .onClass owner => do throw (← indexesType text owner)
  | some inner => do
      let array ← inner.read resolver arguments position
      if array.isMissing then
        match factory with
        | none => pure none
        | some supply =>
            let type ← inner.typeAt resolver arguments position
            let made ← produce supply (← Run.requestedArray type) arguments
            if made.isMissing then
              pure none
            else
              let _ ← inner.write resolver arguments factory position made
              pure (some made)
      else
        pure (some array)

/-- The write of an array node reaches an array and stores an element in it. -/
theorem write_array_eq (serial : Nat) (text : String) (index : Nat) (inner? : Option Node)
    (value : Value) :
    (Node.array serial text index inner?).write resolver arguments factory position value =
      reach resolver arguments factory position text inner? >>= fun
        | none => pure false
        | some holder => storeElement text index holder value >>= fun _ => pure true := by
  cases inner? with
  | none =>
      cases position with
      | onValue target => rfl
      | onClass owner =>
          simp only [write, reach, bind_assoc]
          rfl
  | some inner =>
      simp only [write, reach, bind_assoc]
      refine bind_congr fun array => ?_
      split
      · cases factory with
        | none => rfl
        | some supply =>
            simp only [bind_assoc]
            refine bind_congr fun type => bind_congr fun asked => bind_congr fun made => ?_
            split
            · rfl
            · simp only [bind_assoc, pure_bind]
      · rw [pure_bind]

/-- An element that is stored without a setter goes into a slot of an array. -/
theorem slot_of_storeElement {graph later : Graph} {text : String} {index : Nat}
    {array value : Value}
    (plain : ¬ graph.FindsSetter array (.ofIndex index))
    (ended : storeElement text index array value graph = .ok () later) :
    ∃ place length, array = .object place ∧ graph.arrayLength? array = some length ∧
      graph.placement array (.ofIndex index) = .slot ∧
      later = graph.store array (.ofIndex index) value := by
  unfold storeElement at ended
  rw [bind_get] at ended
  split at ended
  · rename_i isArray
    obtain ⟨length, found⟩ := Option.isSome_iff_exists.1 isArray
    cases array with
    | object place =>
        have notLength : graph.isLength (.object place) (.ofIndex index) = false := by
          have other := Key.ofIndex_ne_name index (show 'l' ∈ "length".toList by decide) (by decide)
          simp [isLength, other]
        obtain ⟨slot, rfl⟩ := Run.slot_of_assignStrictly plain notLength ended
        exact ⟨place, length, rfl, found, slot, rfl⟩
    | _ => cases isArray
  · obtain ⟨_, _, _, thrown⟩ := ok_of_bind ended
    cases thrown

/-- A write of an array node that says it was done has stored its value under the index, in an array
that it reached.  If no setter takes the value there, then below the limit of element numbers it has
become an element of the array, which is as long as it was or ends with this element, and all other
elements and holes are as they were.  Past the limit it is the content of a slot that is named after
the index, and the elements and the length are as they were. -/
theorem array_write_stores {serial : Nat} {text : String} {index : Nat} {inner? : Option Node}
    {value : Value} {graph later : Graph}
    (written : (Node.array serial text index inner?).write resolver arguments factory position value
      graph = .ok true later) :
    ∃ array before, reach resolver arguments factory position text inner? graph =
        .ok (some array) before ∧
      storeElement text index array value before = .ok () later ∧
      (¬ before.FindsSetter array (.ofIndex index) →
        (index < Key.indexLimit → StoresElement before later array index value) ∧
        (Key.indexLimit ≤ index → NamesElement before later array index value)) := by
  rw [write_array_eq] at written
  obtain ⟨array?, before, reached, rest⟩ := ok_of_bind written
  cases array? with
  | none => cases rest
  | some array =>
      obtain ⟨_, stored, isStored, ended⟩ := ok_of_bind rest
      cases ended
      refine ⟨array, before, reached, isStored, fun plain => ?_⟩
      obtain ⟨place, length, rfl, found, slot, rfl⟩ := slot_of_storeElement plain isStored
      have puts := puts_store value slot
      have lengths := arrayLength?_store before place (.ofIndex index) value
      rw [found] at lengths
      refine ⟨fun below => ?_, fun past => ?_⟩
      · have key : Key.ofIndex index = .index index := if_pos below
        rw [key] at puts lengths ⊢
        exact ⟨puts, length, found, lengths⟩
      · have key : Key.ofIndex index = .name (Nat.repr index) := if_neg (Nat.not_lt.2 past)
        rw [key] at puts lengths ⊢
        exact ⟨puts, lengths.trans found.symm⟩

/-- The standard graph with an array of a seven and a hole. -/
@[irreducible]
def pairGraph : Graph :=
  stateAfter (Run.newArray [some (.ofNat 7), none]) Graph.standard

/-- The array of a seven and a hole. -/
def pair : Value :=
  .object (pairGraph.objects.size - 1)

/-- A fourth element is stored behind the two that are there. -/
theorem fourth_element_is_stored :
    ∃ array before later, (Node.array 0 "[3]" 3 none).write Resolver.standard none none
        (.onValue pair) (.ofNat 5) pairGraph = .ok true later ∧
      reach Resolver.standard none none (.onValue pair) "[3]" none pairGraph =
        .ok (some array) before ∧
      ¬ before.FindsSetter array (.ofIndex 3) ∧ StoresElement before later array 3 (.ofNat 5) := by
  have isWritten : (Node.array 0 "[3]" 3 none).write Resolver.standard none none (.onValue pair)
      (.ofNat 5) pairGraph = .ok true _ := ok_of_run' (by decide +kernel)
  obtain ⟨array, before, reached, _, stores⟩ := array_write_stores isWritten
  cases reached
  have plain : ¬ pairGraph.FindsSetter pair (.ofIndex 3) := by
    rintro ⟨getter, setter, enumerable, configurable, found⟩
    have absent : pairGraph.find? pair (.ofIndex 3) = none := by decide +kernel
    rw [absent] at found
    cases found
  exact ⟨_, _, _, isWritten, rfl, plain, (stores plain).1 (by decide)⟩

/-- The segment of an index past the limit of element numbers is one that is accepted, and its write
says that it was done; but the array, to which elements can be added, gets no longer. -/
theorem element_past_limit_is_not_stored :
    (⟨.nothing, [4294967295]⟩ : Form).Spells "[4294967295]".toList ∧
      pairGraph.isExtensible pair = true ∧ pairGraph.arrayLength? pair = some 2 ∧
      ∃ later, (Node.array 0 "[4294967295]" 4294967295 none).write Resolver.standard none none
          (.onValue pair) (.ofNat 5) pairGraph = .ok true later ∧
        later.arrayLength? pair = some 2 ∧
        ¬ StoresElement pairGraph later pair 4294967295 (.ofNat 5) := by
  have index : IndexSpells 4294967295 "[4294967295]".toList :=
    ⟨"4294967295".toList, "4294967295".toList, by decide, by decide, by decide,
      ⟨[], [], by decide, by decide, by decide⟩, by decide⟩
  have isWritten : (Node.array 0 "[4294967295]" 4294967295 none).write Resolver.standard none none
      (.onValue pair) (.ofNat 5) pairGraph = .ok true _ := ok_of_run' (by decide +kernel)
  refine ⟨⟨[], ["[4294967295]".toList], .nothing, .cons index .nil, by simp, by decide⟩,
    by decide +kernel, by decide +kernel, _, isWritten, by decide +kernel, fun stores => ?_⟩
  obtain ⟨length, before, after⟩ := stores.length
  have same : pairGraph.arrayLength? pair = some 2 := by decide +kernel
  have short : (stateAfter ((Node.array 0 "[4294967295]" 4294967295 none).write Resolver.standard
      none none (.onValue pair) (.ofNat 5)) pairGraph).arrayLength? pair = some 2 := by
    decide +kernel
  rw [same] at before
  rw [short] at after
  cases before
  cases after

end Node

end ObjectPath
