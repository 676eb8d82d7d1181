import ObjectPath.Proofs.Checking
import ObjectPath.Proofs.Destination
import ObjectPath.Proofs.Looking

/-!
# What evaluations leave alone

The main result is that evaluating a path overwrites no data but its target.  A read without
a factory changes nothing at all.  A read with a factory and a write keep every slot in which
there was a value, on every outcome: if they end normally, if the write is given up, and if
anything fails on the way.  Only a write may change such a slot, and it is the one that the
last node of the path names.
-/

namespace ObjectPath

open Graph

/-! ## Slots with values -/

namespace Graph

/-- Every slot of an object that holds a value in a graph, save one slot at most, holds the
same in another graph. -/
structure Retains (before after : Graph) (except : Option (Nat × Key)) : Prop where
  slots : ∀ {place : Nat} {object : Object} {key : Key} {property : Property},
    before.object? place = some object → Entries.get? object.slots key = some property →
      property.isBlank = false → except ≠ some (place, key) →
        ∃ later, after.object? place = some later ∧ Entries.get? later.slots key = some property

namespace Retains

variable {first second third : Graph} {except : Option (Nat × Key)}

theorem trans (left : first.Retains second except) (right : second.Retains third except) :
    first.Retains third except where
  slots := by
    intro place object key property found slot notBlank apart
    obtain ⟨middle, foundMiddle, slotMiddle⟩ := left.slots found slot notBlank apart
    exact right.slots foundMiddle slotMiddle notBlank apart

theorem of_grows {guarded : List Key} (grows : first.Grows guarded second) :
    first.Retains second except where
  slots := fun found slot notBlank _ => grows.slots found slot notBlank

theorem of_extends (extends_ : first.Extends second) : first.Retains second except where
  slots := fun found slot _ _ =>
    ⟨_, (extends_.objects (lt_of_object? found)).trans found, slot⟩

/-- A store changes the slot that it writes and no other. -/
theorem store (graph : Graph) (place : Nat) (key : Key) (content : Value) :
    graph.Retains (graph.store (.object place) key content) (some (place, key)) where
  slots := by
    intro other object asked property found slot _ apart
    by_cases samePlace : other = place
    · subst samePlace
      have different : asked ≠ key := by
        rintro rfl
        exact apart rfl
      refine ⟨object.store key content, by simp [object?_store, found], ?_⟩
      rw [Object.store_eq, Entries.get?_put_of_ne different]
      exact slot
    · exact ⟨object, by simp [object?_store, samePlace, found], slot⟩

end Retains

end Graph

/-! ## Evaluations of paths on data -/

namespace Path

/-- The resolver that a path is evaluated with. -/
def resolverIn (path : Path) (world : World) : Resolver :=
  (world.compiler path.compiler).resolver

/-- The keys of the slots that a path names. -/
def keys (path : Path) (resolver : Resolver) : List Key :=
  (path.steps resolver).map Step.key

/-- What an evaluation of a path on a root relies on and keeps: the root and the other grounds
are plain data for the keys of the path.  No function is filled in under the guarded keys. -/
def scene (path : Path) (world : World) (root : Value) (grounds : List Value)
    (guarded : List Key) (generous : Prop) : Scene :=
  ⟨world.graph, path.keys (path.resolverIn world), guarded, root :: grounds, generous⟩

/-- A path of field and array nodes meets plain data under a root, in a sound graph, and no
handler compiles anything. -/
structure Meets (path : Path) (world : World) (root : Value) : Prop where
  plainPath : path.IsPlain
  quiet : world.Quiet
  sound : world.graph.Sound
  known : world.graph.Knows root
  plain : world.graph.Plain (path.keys (path.resolverIn world)) 0 root

variable {path : Path} {world : World} {root : Value}

/-- Values that are there and are plain data for the keys of a path. -/
def Grounded (path : Path) (world : World) (grounds : List Value) : Prop :=
  ∀ value ∈ grounds, world.graph.Knows value ∧
    world.graph.Plain (path.keys (path.resolverIn world)) 0 value

theorem Meets.holds (meets : path.Meets world root) {grounds : List Value}
    (grounded : path.Grounded world grounds) (guarded : List Key) (generous : Prop) :
    (path.scene world root grounds guarded generous).Holds world.graph := by
  have all : path.Grounded world (root :: grounds) := by
    intro value member
    rcases List.mem_cons.1 member with rfl | other
    · exact ⟨meets.known, meets.plain⟩
    · exact grounded value other
  exact ⟨meets.sound, (Extends.refl world.graph).grows meets.sound.toClosed,
    fun value member => (all value member).1, fun value member => (all value member).2⟩

theorem furnished_scene (path : Path) (world : World) (root : Value) (guarded : List Key)
    (generous : Prop) : (path.scene world root sharedValues guarded generous).Furnished :=
  fun _ listed => List.mem_cons_of_mem root (List.mem_map_of_mem listed)

/-- A list of values that passes the check and holds a root is one that a path meets plain data
under. -/
theorem meets_of_check (plainPath : path.IsPlain) (quiet : world.Quiet)
    (sound : world.graph.Sound) {values : List Value}
    (checked : world.graph.isRegion (path.keys (path.resolverIn world)) (root :: values) = true)
    (known : ∀ value ∈ root :: values, world.graph.knows value = true) :
    path.Meets world root ∧ path.Grounded world values :=
  ⟨⟨plainPath, quiet, sound, knows_iff.1 (known root (List.mem_cons_self ..)),
      plain_of_check checked (List.mem_cons_self ..)⟩,
    fun value listed => ⟨knows_iff.1 (known value (List.mem_cons_of_mem root listed)),
      plain_of_check checked (List.mem_cons_of_mem root listed)⟩⟩

end Path

/-! ## A path into a grid -/

/-- The path of one cell of a grid. -/
def cellPath : Path where
  compiler := World.standardPlace
  serial := 0
  source := "cells[1][0]"
  nodes := [.array 2 "cells[1][0]" 0 (some (.array 1 "cells[1]" 1 (some (.field 0 "cells"))))]
  nodes_ne_nil := List.cons_ne_nil _ _
  rootType := none

/-- A world with a grid in it. -/
def gridWorld : World :=
  .initial gridGraph

theorem meets_emptyGrid :
    cellPath.Meets gridWorld emptyGrid ∧ cellPath.Grounded gridWorld sharedValues :=
  Path.meets_of_check (show ∀ node ∈ cellPath.nodes, _ by decide)
    (fun _ _ impossible => by cases impossible) sound_gridGraph (by decide +kernel)
    (by decide +kernel)

/-- In the world with a grid the default factory makes all that a path may be missing. -/
theorem supplies_emptyGrid (path : Path) (guarded : List Key) (generous : Prop)
    (arguments : Option ArgumentMap) :
    (path.scene gridWorld emptyGrid sharedValues guarded generous).Supplies 0 standardFactory
      arguments :=
  @Scene.supplies_standard _ (path.furnished_scene gridWorld emptyGrid guarded generous)
    (@Scene.constructs_of_check _ _ sound_gridGraph stocked_gridGraph) arguments

namespace Session

variable {path : Path} {world : World} {root : Value} {grounds : List Value}
  {options : EvaluateOptions}

/-- The slot that the last node of a path names, if a write comes to it. -/
def slot? (path : Path) (root : Value) (options : EvaluateOptions) (world : World) :
    Option (Nat × Key) :=
  match approach path (.onValue root) options.arguments (factoryOf path options world) world with
  | .ok (.reached (.object place) _) _ =>
      some (place, (path.final (path.resolverIn world)).key)
  | _ => none

/-- If the holder of the last slot is there already, that is the slot. -/
theorem slot?_of_present (meets : path.Meets world root) (present : root.isMissing = false)
    {place : Nat} (travelled : world.graph.travel? root
      (path.leading (path.resolverIn world)) = some (.object place))
    (opens : world.graph.Opens (.object place) (path.final (path.resolverIn world))) :
    slot? path root options world =
      some (place, (path.final (path.resolverIn world)).key) := by
  unfold slot?
  rw [approach_of_present meets.sound.toClassed meets.plainPath rfl present travelled rfl opens]

theorem getValue_peeks (meets : path.Meets world root) (arguments : Option ArgumentMap) :
    Peeks (getValue path root ⟨arguments, none⟩) world fun _ => True := by
  unfold getValue
  cases missing : root.isMissing with
  | true => exact Peeks.pure trivial
  | false =>
      rw [if_neg Bool.false_ne_true]
      split
      · exact Peeks.throw
      · exact Peeks.mono ((evaluate_answers meets.plainPath meets.sound.toClassed rfl
          (Within.refl _) missing).peeks ⟨meets.sound, meets.plain⟩) fun _ _ => trivial

theorem evaluate_retains (meets : path.Meets world root) (grounded : path.Grounded world grounds)
    (present : root.isMissing = false) {arguments : Option ArgumentMap} {supply : Factory}
    (supplies : (path.scene world root grounds [] False).Supplies 0 supply arguments) :
    world.graph.Retains
      (stateAfter (evaluate path (.onValue root) ⟨arguments, some supply⟩) world).graph none := by
  have within : Within (path.scene world root grounds [] False).keys
      (path.steps (path.resolverIn world)) := Within.refl _
  rw [Path.steps_eq_append] at within
  obtain ⟨withinFirst, withinLast⟩ := Within.append.1 within
  have tracks := Scene.track_ensures path meets.plainPath.dropLast withinFirst supplies 0 true
    meets.quiet (meets.holds grounded [] False) (Nat.zero_le _) meets.known present meets.plain
  suffices always : Ensures (evaluate path (.onValue root) ⟨arguments, some supply⟩) world
      (fun _ later => world.graph.Retains later.graph none)
      fun _ later => world.graph.Retains later.graph none from always.stateAfter
  unfold evaluate walkPath
  rw [bind_assoc]
  refine Ensures.ok_bind (resolverOf_eq path world) ?_
  rw [walk_eq _ _ _ _ _ true meets.plainPath.dropLast, bind_assoc]
  refine Ensures.bind_weaker tracks (fun _ _ onward => .of_grows onward.kept.grows) ?_
  rintro arrival later ⟨onward, ends⟩
  have retained : world.graph.Retains later.graph none := .of_grows onward.kept.grows
  cases arrival with
  | stopped => exact retained
  | arrived position inPlace =>
      obtain ⟨value, rfl, comes⟩ := ends
      have sound := onward.kept.holds.sound
      refine Ensures.ok_bind rfl (Ensures.ok_bind (resolverOf_eq path later) ?_)
      rw [show (later.compiler path.compiler).resolver = path.resolverIn world from
        onward.advances.resolver path.compiler]
      exact (onGraph_peeks ((Node.read_answers sound.toClassed comes.present arguments
        meets.plainPath.lastNode withinLast).peeks ⟨sound, comes.plain⟩)).ensures_bind
          (fun _ _ => retained) fun _ => retained

theorem assign_retains (meets : path.Meets world root) (grounded : path.Grounded world grounds)
    (present : root.isMissing = false)
    (supplies : (path.scene world root grounds [] False).Supplies 0 (factoryOf path options world)
      options.arguments)
    (notLength : (path.final (path.resolverIn world)).key ≠ .name "length") (value : Value) :
    world.graph.Retains (stateAfter (assign path (.onValue root) value options) world).graph
      (slot? path root options world) := by
  have holds := meets.holds grounded [] False
  have within := Within.refl (path.steps (path.resolverIn world))
  have goes := Scene.destination_ensures meets.plainPath within supplies rfl meets.quiet holds
    meets.known present meets.plain
  have assigned : stateAfter (assign path (.onValue root) value options) world =
      stateAfter (approach path (.onValue root) options.arguments (factoryOf path options world) >>=
        conclude path options.arguments value) world := by
    rw [stateAfter, assign_eq meets.plainPath, stateAfter]
  rw [assigned]
  unfold slot?
  cases ended : approach path (.onValue root) options.arguments (factoryOf path options world)
      world with
  | error fault middle =>
      rw [stateAfter_of_error (bind_of_error ended)]
      exact .of_grows (goes.error ended).kept.grows
  | ok destination middle =>
      obtain ⟨onward, destined⟩ := goes.ok ended
      have same : (middle.compiler path.compiler).resolver = path.resolverIn world :=
        onward.advances.resolver path.compiler
      have concludes : Ensures (conclude path options.arguments value destination) middle _ _ :=
        Scene.conclude_ensures meets.plainPath within value same
          (onward.advances.quiet meets.quiet) onward.kept.holds destined fun holder _ _ => by
            simp [Graph.isLength, notLength]
      rw [stateAfter_bind ended]
      refine (Retains.of_grows onward.kept.grows).trans ?_
      cases concluded : conclude path options.arguments value destination middle with
      | error fault later =>
          rw [stateAfter_of_error concluded]
          exact .of_extends (concludes.error concluded)
      | ok _ later =>
          rw [stateAfter_of_ok concluded]
          have holdsLater := concludes.ok concluded
          cases destination with
          | stopped => exact .of_extends holdsLater.1
          | refused => exact .of_extends holdsLater.1
          | reached holder attached =>
              obtain ⟨place, rfl, _, rfl⟩ := holdsLater
              exact .store _ _ _ _

end Session

/-! ## A factory whose objects are no plain data -/

/-- The standard graph with a function that puts its receiver in the place of the mark of the
record that the receiver holds.  The last object is a marked record with a slot that is empty. -/
@[irreducible]
def markedGraph : Graph :=
  stateAfter (do
    let _ ← Run.newFunction "strike"
      [.assignOn (.slot .receiver "record") "mark" .receiver, .return .receiver]
    Run.newRecord [(.name "part", .null), (.name "mark", .ofNat 1)])
    Graph.standard

/-- A world with a marked record in it. -/
def markedWorld : World :=
  .initial markedGraph

/-- The marked record. -/
def markedRecord : Value :=
  .object (markedGraph.objects.size - 1)

/-- A factory of new objects that hold the marked record.  Whoever reads their value strikes the
mark out. -/
def striking : Factory := fun _ _ =>
  Run.newOf .object .plain [(.name "record", .data markedRecord .plain),
    (.name "value", .accessor (some (markedGraph.objects.size - 2)) none true true)]

/-- The path of the value of a part. -/
def partPath : Path where
  compiler := World.standardPlace
  serial := 0
  source := "part.value"
  nodes := [.field 0 "part", .field 1 "value"]
  nodes_ne_nil := List.cons_ne_nil _ _
  rootType := none

namespace Session

end Session

end ObjectPath
