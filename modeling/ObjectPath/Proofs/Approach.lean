import ObjectPath.Proofs.Keeping
import ObjectPath.Proofs.Members

/-!
# Writing in two parts

The write of a node goes to the object that is to hold the value, making missing arrays on
the way, and then puts the value there.  The parts are told apart here, and the first one
also says whether every array that was made has been put in its place.
-/

namespace ObjectPath

open Graph

/-! ## The two parts -/

/-- Where the write of a node goes: nowhere, if no factory supplied a missing array, or to an
object.  The object is attached if every array that was made on the way is in its place. -/
inductive Arrival
  | refused
  | reached (holder : Value) (attached : Bool)

namespace Node

/-- Puts a value into the slot that the last step of a node names. -/
def settle (resolver : Resolver) (holder value : Value) : Node → Run Unit
  | .field _ name => (openField openType (resolver.actualName name) .onInstance).set holder value
  | .method _ text _ _ => throw (.unsupportedWrite text)
  | .array _ text index _ => storeElement text index holder value

/-- Goes to the object that is to hold the value of a node. -/
def approach (resolver : Resolver) (arguments : Option ArgumentMap) (factory : Option Factory)
    (position : Position) : Node → Run Arrival
  | .field _ name => do
      let _ ← fieldAt resolver name position
      pure (.reached position.target true)
  | .method _ text _ _ => throw (.unsupportedWrite text)
  | .array _ text _ none =>
      match position with
      | .onValue target => pure (.reached target true)
      | .onClass owner => do throw (← indexesType text owner)
  | .array _ _ _ (some inner) => do
      let array ← inner.read resolver arguments position
      if array.isMissing then
        match factory with
        | none => pure .refused
        | some supply => do
            let type ← inner.typeAt resolver arguments position
            let made ← produce supply (← Run.requestedArray type) arguments
            if made.isMissing then
              pure .refused
            else
              match ← inner.approach resolver arguments factory position with
              | .refused => pure (.reached made false)
              | .reached holder attached => do
                  inner.settle resolver holder made
                  pure (.reached made attached)
      else
        pure (.reached array true)

/-- What is done once the holder of a value is found. -/
def finish (resolver : Resolver) (value : Value) (node : Node) : Arrival → Run Bool
  | .refused => pure false
  | .reached holder _ => do
      node.settle resolver holder value
      pure true

end Node

/-! ## New values -/

/-- What comes of a new value for the slot of a node: there is none, it is lost on the way, or it is
put there. -/
inductive Placing
  | nothing
  | lost (made : Value)
  | placed (made : Value) (attached : Bool)

/-- Where the write of a node goes that needs an array: to the new one, even if it is lost. -/
def Placing.arrival : Placing → Arrival
  | .nothing => .refused
  | .lost made => .reached made false
  | .placed made attached => .reached made attached

namespace Node

variable (resolver : Resolver) (arguments : Option ArgumentMap) (supply : Factory)
  (position : Position)

/-- Makes a value of a type and puts it into the slot of a node. -/
def place (node : Node) (type : Value) : Run Placing := do
  let made ← produce supply type arguments
  if made.isMissing then
    pure .nothing
  else
    match ← node.approach resolver arguments (some supply) position with
    | .refused => pure (.lost made)
    | .reached holder attached => do
        node.settle resolver holder made
        pure (.placed made attached)

/-- A missing array is placed at the inner node. -/
theorem approach_nested (serial : Nat) (text : String) (index : Nat) (inner : Node) :
    (Node.array serial text index (some inner)).approach resolver arguments (some supply) position =
      inner.read resolver arguments position >>= fun array =>
        if array.isMissing then
          inner.typeAt resolver arguments position >>= fun type =>
            Placing.arrival <$> (Run.requestedArray type >>=
              inner.place resolver arguments supply position)
        else
          pure (.reached array true) := by
  rw [approach]
  refine bind_congr fun array => ?_
  split
  · refine bind_congr fun type => ?_
    simp only [map_eq_pure_bind, bind_assoc]
    refine bind_congr fun request => ?_
    unfold place
    rw [bind_assoc]
    refine bind_congr fun made => ?_
    split
    · rfl
    · rw [bind_assoc]
      refine bind_congr fun arrival => ?_
      cases arrival with
      | refused => rfl
      | reached holder attached => simp only [bind_assoc, pure_bind]; rfl
  · rfl

end Node

namespace Node

variable {resolver : Resolver} {arguments : Option ArgumentMap} {factory : Option Factory}
  {position : Position}

theorem fieldAt_name (name : String) :
    Gives (fieldAt resolver name position) fun field => field.name = resolver.actualName name :=
  Gives.bind fun owner _ field _ found => (findField_meets owner _ _ _ _ field _ found).name

/-- Writing is approaching and settling. -/
theorem write_eq (value : Value) {node : Node} (plainNode : node.isPlain = true) :
    node.write resolver arguments factory position value =
      node.approach resolver arguments factory position >>= node.finish resolver value := by
  induction node, plainNode using plainInduction generalizing value with
  | field serial name =>
      simp only [write, approach, bind_assoc, pure_bind, finish, settle]
      refine (fieldAt_name name).bind_congr ?_
      intro field sameName
      simp only [FieldMember.set, sameName, openField]
  | element serial text index =>
      cases position with
      | onValue target => rfl
      | onClass owner =>
          simp only [write, approach, bind_assoc]
          rfl
  | nested serial text index inner plainInner inductionHypothesis =>
      unfold write approach
      simp only [bind_assoc]
      congr 1
      funext array
      split
      · split
        · simp only [pure_bind]
          rfl
        · simp only [bind_assoc]
          congr 1
          funext type
          congr 1
          funext asked
          congr 1
          funext made
          split
          · simp only [pure_bind]
            rfl
          · rw [inductionHypothesis made]
            simp only [bind_assoc]
            congr 1
            funext arrival
            cases arrival with
            | refused =>
                simp only [finish, pure_bind]
                rfl
            | reached holder attached =>
                simp only [finish, bind_assoc, pure_bind]
                rfl
      · simp only [pure_bind]
        rfl

end Node

/-! ## Settling -/

namespace Graph

/-- An object takes a value under the last step of a node: it can be written there, and for an
element it is an array. -/
structure Accepts (graph : Graph) (place : Nat) (step : Step) : Prop where
  slot : graph.placement (.object place) step.key = .slot
  array : ∀ index, step = .element index → graph.isArray (.object place) = true

/-- An assignment that runs no setter and resizes no array goes into a slot or is refused. -/
theorem placement_cases {graph : Graph} {target content : Value} {key : Key}
    (looked : graph.look? target key = some content)
    (notLength : graph.isLength target key = false) :
    graph.placement target key = .slot ∨ graph.placement target key = .readOnly ∨
      graph.placement target key = .notExtensible := by
  unfold look? find? at looked
  unfold placement
  cases own : graph.own? target key with
  | some property =>
      rw [own] at looked
      cases property with
      | accessor getter setter enumerable configurable => cases looked
      | data found flags =>
          cases writable : flags.writable <;> simp [writable, notLength]
  | none =>
      rw [own] at looked
      cases inherited : graph.inherited? target key with
      | none => cases extensible : graph.isExtensible target <;> simp
      | some property =>
          rw [inherited] at looked
          cases property with
          | accessor getter setter enumerable configurable => cases looked
          | data found flags =>
              cases writable : flags.writable <;>
                cases extensible : graph.isExtensible target <;> simp [writable]

end Graph

section Assignment

variable {graph : Graph} {target : Value} (value : Value) {key : Key} {place : Nat}

theorem Run.assignWith_of_slot (slot : graph.placement target key = .slot) :
    Run.assignWith perform target key value graph = .ok true (graph.store target key value) := by
  unfold Run.assignWith
  refine bind_get.trans ?_
  rw [slot]
  rfl

theorem Run.assignWith_of_refused
    (refused : graph.placement target key = .readOnly ∨
      graph.placement target key = .notExtensible) :
    Run.assignWith perform target key value graph = .ok false graph := by
  unfold Run.assignWith
  refine bind_get.trans ?_
  rcases refused with same | same <;> rw [same] <;> rfl

theorem Run.assignStrictly_of_slot (slot : graph.placement (.object place) key = .slot) :
    Run.assignStrictly perform (.object place) key value graph =
      .ok () (graph.store (.object place) key value) := by
  unfold Run.assignStrictly Run.assignObject
  refine bind_get.trans ?_
  exact bind_of_ok (Run.assignWith_of_slot value slot)

theorem Run.assignStrictly_of_refused
    (refused : graph.placement (.object place) key = .readOnly ∨
      graph.placement (.object place) key = .notExtensible) :
    ∃ fault, Run.assignStrictly perform (.object place) key value graph = .error fault graph := by
  unfold Run.assignStrictly Run.assignObject
  refine fails_of_bind rfl (fails_of_bind (Run.assignWith_of_refused value refused) ?_)
  rcases refused with same | same <;> rw [same] <;> exact ⟨_, rfl⟩

theorem FieldMember.set_of_slot (member : FieldMember)
    (slot : graph.placement (.object place) (.ofText member.name) = .slot) :
    member.set (.object place) value graph =
      .ok () (graph.store (.object place) (.ofText member.name) value) := by
  unfold FieldMember.set
  exact bind_of_ok (Run.assignWith_of_slot value slot)

theorem FieldMember.set_of_refused (member : FieldMember)
    (refused : graph.placement (.object place) (.ofText member.name) = .readOnly ∨
      graph.placement (.object place) (.ofText member.name) = .notExtensible) :
    ∃ fault, member.set (.object place) value graph = .error fault graph := by
  unfold FieldMember.set
  exact ⟨_, bind_of_ok (Run.assignWith_of_refused value refused)⟩

end Assignment

namespace Node

variable {graph : Graph} {resolver : Resolver} {holder content : Value}

/-- A value that is accepted is put into its slot. -/
theorem settle_of_accepts {place : Nat} (value : Value) {node : Node}
    (plainNode : node.isPlain = true) (accepts : graph.Accepts place (node.final resolver)) :
    node.settle resolver (.object place) value graph =
      .ok () (graph.store (.object place) (node.final resolver).key value) := by
  cases node with
  | field serial name =>
      exact FieldMember.set_of_slot value
        (openField openType (resolver.actualName name) .onInstance) accepts.slot
  | method => cases plainNode
  | array serial text index inner =>
      unfold settle storeElement
      refine bind_get.trans ?_
      rw [if_pos (accepts.array index rfl)]
      exact Run.assignStrictly_of_slot value accepts.slot

theorem settle_field_ensures (value : Value) (serial : Nat) (name : String)
    (placements : ∀ place, holder = .object place →
      graph.placement holder (.ofText (resolver.actualName name)) = .slot ∨
        graph.placement holder (.ofText (resolver.actualName name)) = .readOnly ∨
        graph.placement holder (.ofText (resolver.actualName name)) = .notExtensible) :
    Ensures ((Node.field serial name).settle resolver holder value) graph
      (fun _ later => ∃ place, holder = .object place ∧
        graph.Accepts place ((Node.field serial name).final resolver) ∧
        later = graph.store (.object place) ((Node.field serial name).final resolver).key value)
      fun _ later => later = graph := by
  cases holder with
  | object place =>
      rcases placements place rfl with slot | refused
      · have accepts : graph.Accepts place ((Node.field serial name).final resolver) :=
          ⟨slot, fun _ impossible => by cases impossible⟩
        have settled := settle_of_accepts value (show (Node.field serial name).isPlain = true from rfl)
          accepts
        unfold Ensures
        rw [settled]
        exact ⟨place, rfl, accepts, rfl⟩
      · have refusal : ∃ fault,
            (Node.field serial name).settle resolver (.object place) value graph =
              .error fault graph :=
          FieldMember.set_of_refused value
            (openField openType (resolver.actualName name) .onInstance) refused
        obtain ⟨fault, ended⟩ := refusal
        unfold Ensures
        rw [ended]
  | _ => exact rfl

theorem settle_element_ensures (sound : graph.Sound) (value : Value) (serial : Nat) (text : String)
    (index : Nat) (inner : Option Node)
    (placements : ∀ place, holder = .object place →
      graph.placement holder (.ofIndex index) = .slot ∨
        graph.placement holder (.ofIndex index) = .readOnly ∨
        graph.placement holder (.ofIndex index) = .notExtensible) :
    Ensures ((Node.array serial text index inner).settle resolver holder value) graph
      (fun _ later => ∃ place, holder = .object place ∧
        graph.Accepts place (.element index) ∧
        later = graph.store (.object place) (.ofIndex index) value)
      fun _ later => later = graph := by
  unfold settle storeElement
  refine Ensures.get_bind ?_
  cases isArray : graph.isArray holder with
  | false =>
      have fails : Peeks (notAnArray text holder >>= fun fault => (throw fault : Run Unit)) graph
          fun _ => False :=
        (notAnArray_peeks sound text holder).bind fun _ _ => Peeks.throw
      exact fails.ensures (fun _ => False.elim) fun _ => rfl
  | true =>
      cases holder with
      | object place =>
          rw [if_pos rfl]
          unfold Ensures
          rcases placements place rfl with slot | refused
          · rw [Run.assignStrictly_of_slot value slot]
            exact ⟨place, rfl, ⟨slot, fun _ _ => isArray⟩, rfl⟩
          · obtain ⟨fault, ended⟩ := Run.assignStrictly_of_refused value refused
            rw [ended]
      | _ => cases isArray

/-- Settling puts the value into its slot or leaves the graph alone. -/
theorem settle_ensures (sound : graph.Sound) (value : Value) {node : Node}
    (plainNode : node.isPlain = true)
    (looked : graph.look? holder (node.final resolver).key = some content)
    (notLength : graph.isLength holder (node.final resolver).key = false) :
    Ensures (node.settle resolver holder value) graph
      (fun _ later => ∃ place, holder = .object place ∧
        graph.Accepts place (node.final resolver) ∧
        later = graph.store (.object place) (node.final resolver).key value)
      fun _ later => later = graph := by
  have placements := placement_cases looked notLength
  cases node with
  | field serial name => exact settle_field_ensures value serial name fun _ _ => placements
  | method => cases plainNode
  | array serial text index inner =>
      exact settle_element_ensures sound value serial text index inner fun _ _ => placements

end Node

end ObjectPath
