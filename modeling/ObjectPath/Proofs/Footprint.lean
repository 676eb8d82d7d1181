import ObjectPath.Proofs.Filling

/-!
# The footprint of a filled node

Where the missing value of a node is filled in, the objects that were there before differ
afterwards at most in slots that the steps of the node pass.  Arrays that are made on the way
are new, so the values that are put into those are no difference.
-/

namespace ObjectPath

open Graph

namespace Graph

/-! ## Slots on a way -/

/-- Steps from a value pass a slot: those before one of them lead to its object, and that one
has its key. -/
def Passes (graph : Graph) (value : Value) (steps : List Step) (place : Nat) (key : Key) : Prop :=
  ∃ first step rest, steps = first ++ step :: rest ∧
    graph.travel? value first = some (.object place) ∧ step.key = key

theorem Passes.append {graph : Graph} {value : Value} {first second : List Step} {place : Nat}
    {key : Key} (passes : graph.Passes value first place key) :
    graph.Passes value (first ++ second) place key := by
  obtain ⟨lead, step, rest, rfl, travelled, named⟩ := passes
  exact ⟨lead, step, rest ++ second, by simp, travelled, named⟩

theorem passes_last {graph : Graph} {value : Value} {lead : List Step} {place : Nat}
    (travelled : graph.travel? value lead = some (.object place)) (step : Step) :
    graph.Passes value (lead ++ [step]) place step.key :=
  ⟨lead, step, [], rfl, travelled, rfl⟩

/-! ## Altered slots -/

/-- Members that go with some slots: the slots themselves, and the length of an array with
its elements. -/
def Covers (slots : Nat → Key → Prop) (place : Nat) (key : Key) : Prop :=
  slots place key ∨ key = .name "length" ∧ ∃ index, slots place (.index index)

theorem Covers.mono {slots others : Nat → Key → Prop} {place : Nat} {key : Key}
    (covers : Covers slots place key) (weaker : ∀ key, slots place key → others place key) :
    Covers others place key :=
  covers.imp (weaker key) fun ⟨isLength, index, covered⟩ =>
    ⟨isLength, index, weaker _ covered⟩

/-- The objects of a graph are the same in a later one, but for what goes with some slots. -/
structure Alters (slots : Nat → Key → Prop) (before after : Graph) : Prop where
  size : before.objects.size ≤ after.objects.size
  own : ∀ {place : Nat} {key : Key}, place < before.objects.size →
    after.ownAt? place key ≠ before.ownAt? place key → Covers slots place key

namespace Alters

variable {slots others : Nat → Key → Prop} {first second third : Graph}

theorem of_extends (extends_ : first.Extends second) : first.Alters slots second where
  size := extends_.size
  own := fun inside differs => absurd (extends_.ownAt? inside _) differs

theorem mono (alters : first.Alters slots second)
    (weaker : ∀ place key, place < first.objects.size → slots place key → others place key) :
    first.Alters others second where
  size := alters.size
  own := fun inside differs =>
    (alters.own inside differs).mono fun key => weaker _ key inside

theorem trans (left : first.Alters slots second) (right : second.Alters slots third) :
    first.Alters slots third where
  size := Nat.le_trans left.size right.size
  own := by
    intro place key inside differs
    by_cases same : third.ownAt? place key = second.ownAt? place key
    · rw [same] at differs
      exact left.own inside differs
    · exact right.own (Nat.lt_of_lt_of_le inside left.size) same

theorem ownAt?_store_length_of_name (graph : Graph) (place other : Nat) {text : String}
    (content : Value) (different : "length" ≠ text) :
    (graph.store (.object place) (.name text) content).ownAt? other (.name "length") =
      graph.ownAt? other (.name "length") := by
  rw [Graph.ownAt?, Graph.ownAt?, object?_store]
  split
  · subst other
    cases graph.object? place with
    | none => rfl
    | some object =>
        obtain ⟨parent, body, entries, extensible⟩ := object
        have slots := Entries.get?_put_of_ne
          (show Key.name "length" ≠ .name text from fun same => different (Key.name.inj same)) entries
        cases body <;> simp [Object.store_eq, Object.own?, Object.intrinsic?, Body.reaching, slots]
  · rfl

/-- A store alters the slot that it writes. -/
theorem store (alters : first.Alters slots second) {place : Nat} {key : Key} (content : Value)
    (covered : place < first.objects.size → slots place key) :
    first.Alters slots (second.store (.object place) key content) where
  size := by
    rw [size_store]
    exact alters.size
  own := by
    intro other asked inside differs
    by_cases stored : (second.store (.object place) key content).ownAt? other asked =
        second.ownAt? other asked
    · rw [stored] at differs
      exact alters.own inside differs
    · have samePlace : other = place := by
        by_contra different
        exact stored (ownAt?_store_of_ne_place second key content asked different)
      subst samePlace
      by_cases sameKey : asked = key
      · exact Or.inl (sameKey ▸ covered inside)
      · have isLength : asked = .name "length" := by
          by_contra different
          exact stored (ownAt?_store_of_ne_key second other other content sameKey different)
        subst isLength
        cases key with
        | index position => exact Or.inr ⟨rfl, position, covered inside⟩
        | name text =>
            exact absurd (ownAt?_store_length_of_name second other other content
              fun same => sameKey (congrArg Key.name same)) stored

end Alters

end Graph

/-! ## Going to a holder -/

namespace Scene

variable {scene : Scene} {floor : Nat} {origin : Graph} {target : Value} {resolver : Resolver}

/-- Settling a value in a vacant slot is one store. -/
theorem settle_stores {before after : Graph} {node : Node} {holder : Value} {attached : Bool}
    (plainNode : node.isPlain = true) (within : Within scene.keys (node.steps resolver))
    (sound : after.Sound)
    (reached : scene.Reached floor origin before target resolver node holder attached after)
    (vacant : scene.Vacant before target resolver node holder attached after) (made : Value) :
    Ensures (node.settle resolver holder made) after
      (fun _ later => ∃ place, holder = .object place ∧
        later = after.store (.object place) (node.final resolver).key made)
      fun _ _ => True := by
  have named := (Within.append.1 within).2 (node.final resolver) (by simp)
  obtain ⟨content, looked, _⟩ := reached.plain.look? reached.present named
  refine Ensures.mono (Node.settle_ensures sound made plainNode looked vacant.isLength) ?_
    fun _ _ _ => trivial
  rintro _ later ⟨place, isHolder, _, stored⟩
  exact ⟨place, isHolder, stored⟩

/-- Of the objects that were there, going to the holder of a value alters slots on the way to
it, and the holder, if it was there, is what the way leads to. -/
def Traces (origin : Graph) (target : Value) (resolver : Resolver) (node : Node)
    (arrival : Arrival) (after : Graph) : Prop :=
  origin.Alters (origin.Passes target (node.leading resolver)) after ∧
    ∀ place attached, arrival = .reached (.object place) attached →
      place < origin.objects.size →
        origin.travel? target (node.leading resolver) = some (.object place)

theorem Entry.traces_target {graph : Graph} (entry : scene.Entry floor origin graph target)
    {node : Node} (noSteps : node.leading resolver = []) :
    Traces origin target resolver node (.reached target true) graph := by
  refine ⟨.of_extends entry.since, ?_⟩
  rintro place attached same _
  cases same
  rw [noSteps]
  rfl

theorem approach_traces {supply : Factory} {arguments : Option ArgumentMap}
    (supplies : scene.Supplies floor supply arguments) {graph : Graph}
    (entry : scene.Entry floor origin graph target) {node : Node}
    (plainNode : node.isPlain = true) (within : Within scene.keys (node.steps resolver))
    {array : Value} (travelled : origin.travel? target (node.leading resolver) = some array) :
    Ensures (node.approach resolver arguments (some supply) (.onValue target)) graph
      (Traces origin target resolver node) fun _ _ => True := by
  induction node, plainNode using Node.plainInduction generalizing graph array with
  | field serial name =>
      have named := within (.field (resolver.actualName name))
        (by simp [Node.steps, Node.final, Node.leading])
      have looks : graph.Sound →
          (graph.look? target (.ofText (resolver.actualName name))).isSome = true := by
        intro _
        obtain ⟨found, looked, _⟩ := entry.plain.look? entry.present named
        rw [show graph.look? target (.ofText (resolver.actualName name)) = some found from looked]
        rfl
      refine ((Node.fieldAt_answers entry.holds.sound.toClassed entry.present id looks).peeks
        entry.holds.sound).ensures_bind ?_ fun _ => trivial
      intro _ _
      exact entry.traces_target rfl
  | element serial text index => exact entry.traces_target rfl
  | nested serial text index inner plainInner inductionHypothesis =>
      have parts : (Node.array serial text index (some inner)).steps resolver =
          inner.steps resolver ++ [.element index] := rfl
      rw [parts] at within
      have withinInner := (Within.append.1 within).1
      have travelledInner : origin.travel? target (inner.steps resolver) = some array := travelled
      obtain ⟨first, travelledFirst, _⟩ := Option.bind_eq_some_iff.1
        ((travel?_append ..).symm.trans travelledInner)
      have sound := entry.holds.sound
      unfold Node.approach
      refine ((Node.read_answers sound.toClassed entry.present arguments plainInner
        withinInner).peeks ⟨sound, entry.plain⟩).ensures_bind ?_ fun _ => trivial
      intro found travelledLater
      rw [entry.since.travel?_of_some entry.closed entry.known travelledInner,
        Option.some.injEq] at travelledLater
      subst travelledLater
      split
      case isFalse there =>
        refine ⟨.of_extends entry.since, ?_⟩
        rintro place attached same _
        cases same
        exact travelledInner
      case isTrue missing =>
        refine (Node.typeAt_peeks sound entry.present entry.plain arguments plainInner
          withinInner).ensures_bind ?_ fun _ => trivial
        intro type requested
        refine (Run.requestedArray_ensures sound requested).bind_of_never ?_
        rintro request asked ⟨sinceAsked, soundAsked, requestedAsked⟩
        have entryAsked := entry.later sinceAsked soundAsked
        refine Ensures.bind_weaker (produce_ensures supplies entryAsked.holds entryAsked.above
          requestedAsked) (fun _ _ _ => trivial) ?_
        intro made produced made_
        have entryMade := entryAsked.later made_.extends_ made_.sound
        split
        case isTrue => exact ⟨.of_extends entryMade.since, by rintro _ _ ⟨⟩⟩
        case isFalse there =>
          -- Whatever comes of the inner node, the new array is the holder.
          have new : ∀ place, made = .object place → origin.objects.size ≤ place := fun place same =>
            Nat.le_trans entryAsked.since.size (made_.new place same)
          have holds : ∀ {later : Graph} {attached : Bool},
              origin.Alters (origin.Passes target (inner.steps resolver)) later →
              Traces origin target resolver (.array serial text index (some inner))
                (.reached made attached) later := by
            intro later attached alters
            refine ⟨alters, ?_⟩
            rintro place _ same inside
            cases same
            exact absurd (new place rfl) (by omega)
          have arrives := approach_ensures supplies entryMade plainInner withinInner
          have deeper := inductionHypothesis entryMade withinInner travelledFirst
          refine Ensures.bind_weaker (Ensures.and arrives deeper) (fun _ _ _ => trivial) ?_
          rintro arrival later ⟨arrives, alters, leads⟩
          have altersInner : origin.Alters (origin.Passes target (inner.steps resolver)) later :=
            alters.mono fun _ _ _ => Passes.append
          cases arrival with
          | refused => exact holds altersInner
          | reached holder attached =>
              obtain ⟨kept, reached, vacancy⟩ := arrives
              have vacant := vacancy array
                (entryMade.since.travel?_of_some entry.closed entry.known travelledInner) missing
              refine Ensures.bind (settle_stores plainInner withinInner kept.holds.sound reached
                vacant made) ?_
              rintro _ final ⟨place, rfl, rfl⟩
              exact holds (altersInner.store made fun inside =>
                passes_last (leads place attached rfl inside) _)

/-- Going to the holder of a value alters slots that the steps before the last one pass. -/
theorem approach_alters {supply : Factory} {arguments : Option ArgumentMap}
    (supplies : scene.Supplies floor supply arguments) {graph : Graph}
    (entry : scene.Entry floor graph graph target) {node : Node} (plainNode : node.isPlain = true)
    (within : Within scene.keys (node.steps resolver)) :
    Ensures (node.approach resolver arguments (some supply) (.onValue target)) graph
      (fun _ later => graph.Alters (graph.Passes target (node.leading resolver)) later)
      fun _ _ => True := by
  cases travelled : graph.travel? target (node.leading resolver) with
  | some array =>
      exact (approach_traces supplies entry plainNode within travelled).mono
        (fun _ _ traces => traces.1) fun _ _ => id
  | none =>
      cases node with
      | array serial text index inner =>
          cases inner with
          | none => cases travelled
          | some inner =>
              have plainInner : inner.isPlain = true := plainNode
              unfold Node.approach
              refine ((Node.read_answers entry.holds.sound.toClassed entry.present arguments plainInner
                (Within.append.1 within).1).peeks
                ⟨entry.holds.sound, entry.plain⟩).ensures_bind ?_ fun _ => trivial
              intro array travelledLater
              cases travelled.symm.trans travelledLater
      | _ => cases travelled

/-- Filling in a missing value alters slots that the steps of the node pass, and none at all
if the value could not be made. -/
theorem fill_alters {supply : Factory} {arguments : Option ArgumentMap}
    (supplies : scene.Supplies floor supply arguments) {graph : Graph}
    (entry : scene.Entry floor graph graph target) {node : Node} (plainNode : node.isPlain = true)
    (within : Within scene.keys (node.steps resolver)) {content : Value}
    (travelled : graph.travel? target (node.steps resolver) = some content)
    (missing : content.isMissing = true) :
    Ensures (node.fill resolver arguments supply (.onValue target)) graph
      (fun filling later => match filling with
        | .refused _ => graph.Extends later
        | .filled _ _ _ => graph.Alters (graph.Passes target (node.steps resolver)) later)
      fun _ _ => True := by
  have sound := entry.holds.sound
  unfold Node.fill
  refine (Node.typeAt_peeks sound entry.present entry.plain arguments plainNode
    within).ensures_bind ?_ fun _ => trivial
  intro type requested
  refine Ensures.bind_weaker (produce_ensures supplies entry.holds entry.above requested)
    (fun _ _ _ => trivial) ?_
  intro made middle made_
  have entryMade := entry.later made_.extends_ made_.sound
  obtain ⟨array, travelledFirst, _⟩ := Option.bind_eq_some_iff.1
    ((travel?_append ..).symm.trans travelled)
  split
  case isTrue => exact made_.extends_
  case isFalse there =>
    have arrives := approach_ensures supplies entryMade plainNode within
    have traces := approach_traces supplies entryMade plainNode within travelledFirst
    refine Ensures.bind_weaker (Ensures.and arrives traces) (fun _ _ _ => trivial) ?_
    rintro arrival later ⟨arrives, alters, leads⟩
    cases arrival with
    | refused => exact made_.extends_.trans arrives.2.2
    | reached holder attached =>
        obtain ⟨kept, reached, vacancy⟩ := arrives
        have vacant := vacancy content
          (entryMade.since.travel?_of_some entry.closed entry.known travelled) missing
        refine Ensures.bind (settle_stores plainNode within kept.holds.sound reached vacant made) ?_
        rintro _ final ⟨place, rfl, rfl⟩
        exact (alters.mono fun _ _ _ => Passes.append).store made fun inside =>
          passes_last (leads place attached rfl inside) _

end Scene

end ObjectPath
