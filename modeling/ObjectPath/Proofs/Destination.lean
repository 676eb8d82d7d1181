import ObjectPath.Proofs.Course

/-!
# Where writes go

A write goes to the object that is to hold the value, if a factory supplies all that is
missing on the way, and is given up otherwise.  The steps before the last one lead to that
object, as long as every array that was made is in its place.
-/

namespace ObjectPath

open Graph

namespace Scene

open Session

variable {scene : Scene} {target : Value} {path : Path}

/-- A write has come to the object that is to hold the value. -/
structure Lands (scene : Scene) (isolated : Prop) (before : Graph) (target : Value)
    (resolver : Resolver) (path : Path) (holder : Value) (attached : Bool) (after : Graph) :
    Prop where
  known : after.Knows holder
  present : holder.isMissing = false
  plain : after.Plain scene.keys 0 holder
  opens : after.Opens holder (path.final resolver)
  way : attached = true → Guards scene.guarded (path.leading resolver) →
    ∃ found, after.travel? target (path.leading resolver) = some found ∧ Value.Like holder found
  lost : attached = false → ¬ scene.generous ∧
    (Guards scene.guarded (path.leading resolver) → isolated → ∃ earlier,
      scene.Strays before target (path.leading resolver) earlier after ∧
        ∀ place, holder = .object place → earlier.objects.size ≤ place)

/-- Where a write is to end, if nothing fails. -/
def Destined (scene : Scene) (isolated : Prop) (before : Graph) (target : Value)
    (resolver : Resolver) (path : Path) (after : Graph) : Destination → Prop
  | .stopped _ type => after.IsType type ∧ ¬ scene.generous
  | .refused position => ∃ value, position = .onValue value ∧ value.isMissing = false ∧
      after.Plain scene.keys 0 value ∧ ¬ scene.generous
  | .reached holder attached =>
      scene.Lands isolated before target resolver path holder attached after

theorem Strays.later {before middle after : Graph} {steps : List Step} {earlier : Graph}
    (strays : scene.Strays before target steps earlier middle) (extends_ : earlier.Extends after)
    (rest : List Step) : scene.Strays before target (steps ++ rest) earlier after where
  sound := strays.sound
  grows := strays.grows
  extends_ := extends_
  nothing := by
    obtain ⟨content, travelled, missing⟩ := strays.nothing
    obtain ⟨nothing, travelledOn, nothingMissing⟩ := earlier.travel?_of_isMissing missing rest
    exact ⟨nothing, by rw [travel?_append, travelled, Option.bind_some, travelledOn],
      nothingMissing⟩

/-- What the approach of the last node comes to, after the walk to it. -/
theorem Comes.lands {isolated : Prop} {before middle after : Graph} {resolver : Resolver}
    {value holder : Value} {inPlace inPlaceLast : Bool} (known : before.Knows target)
    (kept : scene.Kept 0 before middle)
    (comes : scene.Comes 0 isolated before target (stepsOf resolver path.nodes.dropLast) true value
      inPlace middle)
    (keptLast : scene.Kept 0 middle after)
    (reached : scene.Reached 0 middle middle value resolver path.lastNode holder inPlaceLast after)
    (apart : isolated → ∀ earlier : Graph, earlier.Extends middle →
      middle.Plain scene.keys earlier.objects.size value → earlier.Extends after ∧
        ∀ place, holder = .object place → earlier.objects.size ≤ place) :
    scene.Lands isolated before target resolver path holder (inPlace && inPlaceLast) after where
  known := reached.known
  present := reached.present
  plain := reached.plain
  opens := reached.opens
  way := by
    intro both guards
    obtain ⟨isInPlace, isInPlaceLast⟩ := Bool.and_eq_true_iff.1 both
    obtain ⟨guardsFirst, guardsLast⟩ := Guards.append.1 guards
    obtain ⟨found, travelled, like⟩ := (comes.way isInPlace).2 guardsFirst
    have present : found.isMissing = false := by rw [like.isMissing, comes.present]
    obtain ⟨later, travelledLater, likeLater⟩ := keptLast.grows.travel?
      kept.holds.sound.toClosed (kept.grows.knows known) guardsFirst (Value.Like.refl target)
      travelled present
    obtain ⟨other, travelledLast, likeLast⟩ := after.travel?_of_like (like.trans likeLater)
      (reached.way isInPlaceLast guardsLast).1
    exact ⟨other, by rw [Path.leading, travel?_append, travelledLater, Option.bind_some,
      travelledLast], likeLast⟩
  lost := by
    intro notBoth
    -- What was lost was lost on the walk or at the last node.
    cases isInPlace : inPlace with
    | false =>
        rcases comes.lost isInPlace with impossible | ⟨notGenerous, strays⟩
        · cases impossible
        · refine ⟨notGenerous, fun guards isolated_ => ?_⟩
          obtain ⟨earlier, stray, apartValue⟩ := strays (Guards.append.1 guards).1 isolated_
          obtain ⟨extends_, places⟩ := apart isolated_ earlier stray.extends_ apartValue
          exact ⟨earlier, stray.later extends_ _, places⟩
    | true =>
        have isLost : inPlaceLast = false := by simpa [isInPlace] using notBoth
        obtain ⟨notGenerous, extends_, new⟩ := reached.lost isLost
        refine ⟨notGenerous, fun guards _ => ⟨middle, ?_, new⟩⟩
        obtain ⟨found, travelled, like⟩ := (comes.way isInPlace).2 (Guards.append.1 guards).1
        obtain ⟨content, travelledLast, missing⟩ := reached.nothing isLost
        obtain ⟨other, travelledOther, likeOther⟩ := middle.travel?_of_like like travelledLast
        refine ⟨kept.holds.sound, kept.grows, extends_, other, ?_, ?_⟩
        · rw [Path.leading, travel?_append, travelled, Option.bind_some, travelledOther]
        · rw [likeOther.isMissing, missing]

theorem destination_ensures {resolver : Resolver} {supply : Factory}
    {arguments : Option ArgumentMap} (plainPath : path.IsPlain)
    (within : Within scene.keys (path.steps resolver))
    (supplies : scene.Supplies 0 supply arguments) {world : World}
    (same : (world.compiler path.compiler).resolver = resolver) (quiet : world.Quiet)
    (holds : scene.Holds world.graph) (known : world.graph.Knows target)
    (present : target.isMissing = false) (plain : world.graph.Plain scene.keys 0 target) :
    Ensures (Session.approach path (.onValue target) arguments supply) world
      (fun destination later => scene.Onward 0 world later ∧
        scene.Destined (scene.Isolates supply arguments) world.graph target resolver path
          later.graph destination)
      fun _ later => scene.Onward 0 world later := by
  rw [Path.steps_eq_append] at within
  obtain ⟨withinFirst, withinLast⟩ := Within.append.1 within
  unfold Session.approach
  refine Ensures.ok_bind (resolverOf_eq path world) ?_
  rw [same]
  refine Ensures.bind (track_ensures path plainPath.dropLast withinFirst supplies 0 true quiet holds
    (Nat.zero_le _) known present plain) ?_
  rintro arrival middle ⟨onward, ends⟩
  cases arrival with
  | stopped index type =>
      obtain ⟨requested, rfl, isType, notGenerous⟩ := ends
      exact ⟨onward, isType, notGenerous⟩
  | arrived position inPlace =>
      obtain ⟨value, rfl, comes⟩ := ends
      refine Ensures.ok_bind (resolverOf_eq path middle) ?_
      rw [onward.advances.resolver, same]
      have holdsLater := onward.kept.holds
      have reaches := approach_ensures supplies (Entry.at_once holdsLater (Nat.zero_le _)
        comes.known comes.present comes.plain) plainPath.lastNode withinLast
      -- From a value that is apart from an earlier graph, the approach stays apart from it.
      have apart := Ensures.all fun isolated : scene.Isolates supply arguments =>
        Ensures.all fun earlier : Graph =>
          Ensures.all fun extends_ : earlier.Extends middle.graph =>
            Ensures.all fun apart : middle.graph.Plain scene.keys earlier.objects.size value =>
              approach_ensures (isolated _) (Entry.at_once holdsLater extends_.size comes.known
                comes.present apart) plainPath.lastNode withinLast
      refine Ensures.bind_weaker (onGraph_ensures (Ensures.and reaches apart)) ?_ ?_
      · rintro _ later ⟨sameWorld, kept, _⟩
        rw [sameWorld]
        exact onward.trans (.of_graph kept)
      · rintro arrival later ⟨sameWorld, ⟨kept, arrives⟩, arrivesApart⟩
        have onwardLater : scene.Onward 0 world later := by
          rw [sameWorld]
          exact onward.trans (.of_graph kept)
        cases arrival with
        | refused =>
            exact ⟨onwardLater, value, rfl, comes.present,
              kept.plain (Nat.le_refl 0) comes.known comes.plain, arrives.1⟩
        | reached holder inPlaceLast =>
            refine ⟨onwardLater, comes.lands known onward.kept kept arrives.1 ?_⟩
            intro isolated earlier extends_ apartValue
            obtain ⟨keptApart, reachedApart, _⟩ :=
              arrivesApart isolated earlier extends_ apartValue
            refine ⟨keptApart.above extends_ (Nat.le_refl _), ?_⟩
            rintro place rfl
            exact reachedApart.plain.floor_le

/-! ## Ends of writes -/

/-- What a write comes to at its end: the value is in its slot, or the write was given up. -/
def Concluded (resolver : Resolver) (path : Path) (value : Value) (before after : World) :
    Destination → Prop
  | .reached holder _ => ∃ place, holder = .object place ∧
      before.graph.Accepts place (path.final resolver) ∧
      after = { before with
        graph := before.graph.store (.object place) (path.final resolver).key value }
  | _ => before.graph.Extends after.graph ∧ after.abandonments = before.abandonments + 1

/-- A write that ends by a fault puts no value anywhere. -/
theorem conclude_ensures {isolated : Prop} {start : Graph} {resolver : Resolver}
    {arguments : Option ArgumentMap} (plainPath : path.IsPlain)
    (within : Within scene.keys (path.steps resolver)) (value : Value) {world : World}
    (same : (world.compiler path.compiler).resolver = resolver) (quiet : world.Quiet)
    (holds : scene.Holds world.graph) {destination : Destination}
    (destined : scene.Destined isolated start target resolver path world.graph destination)
    (notLength : ∀ holder attached, destination = .reached holder attached →
      world.graph.isLength holder (path.final resolver).key = false) :
    Ensures (conclude path arguments value destination) world
      (fun _ later => Concluded resolver path value world later destination)
      fun _ later => world.graph.Extends later.graph := by
  have parts : path.steps resolver =
      path.leading resolver ++ [path.final resolver] := path.steps_eq resolver
  have named : (path.final resolver).key ∈ scene.keys :=
    within (path.final resolver) (by simp [parts])
  cases destination with
  | stopped index type =>
      refine Ensures.mono (abandon_ensures path index quiet holds.sound destined.1) ?_ ?_
      · rintro _ later ⟨sameGraph, counted⟩
        exact ⟨sameGraph ▸ Extends.refl _, counted⟩
      · rintro _ later sameGraph
        exact sameGraph ▸ Extends.refl _
  | refused position =>
      obtain ⟨position, rfl, present, plain, _⟩ := destined
      have withinLast : Within scene.keys (path.lastNode.steps resolver) := fun step member =>
        within step (by simp_all [Path.leading, Path.final, Node.steps])
      refine Ensures.ok_bind (resolverOf_eq path world) ?_
      rw [same]
      refine (onGraph_peeks (Node.typeAt_peeks holds.sound present plain arguments
        plainPath.lastNode withinLast)).ensures_bind ?_ fun _ => Extends.refl _
      intro type requested
      refine Ensures.bind_of_never (Ensures.mono (onGraph_ensures (Run.arrayOf_ensures holds.sound
        (holds.sound.isType requested))) (fun _ _ => id) fun _ _ => And.right) ?_
      rintro arrayType later ⟨sameWorld, extends_, sound, isArrayType, _⟩
      -- Only the array type is made in between, which reports nothing.
      have counted : later.abandonments = world.abandonments := by
        rw [sameWorld]
        rfl
      have quietLater : later.Quiet := by
        rw [sameWorld]
        exact quiet
      refine Ensures.mono (abandon_ensures path _ quietLater sound (Or.inr isArrayType)) ?_ ?_
      · rintro _ final ⟨sameGraph, added⟩
        exact ⟨sameGraph ▸ extends_, by rw [added, counted]⟩
      · rintro _ final sameGraph
        exact sameGraph ▸ extends_
  | reached holder attached =>
      obtain ⟨content, looked, _⟩ := destined.plain.look? destined.present named
      refine Ensures.ok_bind (resolverOf_eq path world) ?_
      rw [same]
      refine Ensures.mono (onGraph_ensures (Node.settle_ensures holds.sound value
        plainPath.lastNode looked (notLength holder attached rfl))) ?_ ?_
      · rintro _ later ⟨sameWorld, place, isHolder, accepts, sameGraph⟩
        rw [sameGraph] at sameWorld
        exact ⟨place, isHolder, accepts, sameWorld⟩
      · rintro _ later ⟨_, sameGraph⟩
        exact sameGraph ▸ Extends.refl _

end Scene

end ObjectPath
