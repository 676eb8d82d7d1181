import ObjectPath.Proofs.Arrival

/-!
# Filling in a missing value

Where a walk meets a missing value, the factory is asked for one, and what it gives is put
into the slot of the node.  Everything that an evaluation relies on is kept.  The value is in
its place afterwards if every array that was made for it is; otherwise the objects that were
there before are as they were.
-/

namespace ObjectPath

open Graph

/-- What comes of asking a factory for the missing value of a node. -/
inductive Filling
  | refused (type : Value)
  | filled (type made : Value) (attached : Bool)

/-- Fills in the missing value of a node. -/
def Node.fill (resolver : Resolver) (arguments : Option ArgumentMap) (supply : Factory)
    (position : Position) (node : Node) : Run Filling := do
  let type ← node.typeAt resolver arguments position
  let made ← produce supply type arguments
  if made.isMissing then
    pure (.refused type)
  else
    match ← node.approach resolver arguments (some supply) position with
    | .refused => pure (.refused type)
    | .reached holder attached => do
        node.settle resolver holder made
        pure (.filled type made attached)

namespace Scene

variable {scene : Scene} {floor : Nat} {target : Value} {resolver : Resolver}

/-- Whether what a factory makes is never connected with objects that are there already. -/
def Isolates (scene : Scene) (supply : Factory) (arguments : Option ArgumentMap) : Prop :=
  ∀ floor, scene.Supplies floor supply arguments

/-- A missing value has been filled in. -/
structure Fills (scene : Scene) (floor : Nat) (isolated : Prop) (before : Graph) (target : Value)
    (resolver : Resolver) (node : Node) (made : Value) (attached : Bool) (after : Graph) :
    Prop where
  kept : scene.Kept floor before after
  known : after.Knows made
  present : made.isMissing = false
  plain : after.Plain scene.keys floor made
  way : attached = true → Guards scene.guarded (node.steps resolver) →
    after.travel? target (node.steps resolver) = some made
  lost : attached = false → ¬ scene.generous ∧ before.Extends after ∧
    (isolated → after.Plain scene.keys before.objects.size made)

/-- What comes of a missing value, if nothing fails. -/
def FillsIn (scene : Scene) (floor : Nat) (isolated : Prop) (before : Graph) (target : Value)
    (resolver : Resolver) (node : Node) (filling : Filling) (after : Graph) : Prop :=
  scene.Kept floor before after ∧
    match filling with
    | .refused type => after.IsType type ∧ ¬ scene.generous
    | .filled type made attached => after.IsType type ∧
        scene.Fills floor isolated before target resolver node made attached after

theorem fill_ensures {supply : Factory} {arguments : Option ArgumentMap}
    (supplies : scene.Supplies floor supply arguments) {graph : Graph}
    (entry : scene.Entry floor graph graph target) {node : Node} (plainNode : node.isPlain = true)
    (within : Within scene.keys (node.steps resolver)) {content : Value}
    (travelled : graph.travel? target (node.steps resolver) = some content)
    (missing : content.isMissing = true) :
    Ensures (node.fill resolver arguments supply (.onValue target)) graph
      (scene.FillsIn floor (scene.Isolates supply arguments) graph target resolver node)
      fun _ later => scene.Kept floor graph later := by
  have sound := entry.holds.sound
  unfold Node.fill
  refine (Node.typeAt_peeks sound entry.present entry.plain arguments plainNode
    within).ensures_bind ?_ fun _ => .refl entry.holds
  intro type requested
  have isType := sound.isType requested
  -- What is made is plain data above the floor, and above all that is there if it is isolated.
  have produced := Ensures.and (produce_ensures supplies entry.holds entry.above requested)
    (Ensures.all fun isolated : scene.Isolates supply arguments =>
      produce_ensures (isolated graph.objects.size) entry.holds (Nat.le_refl _) requested)
  refine Ensures.bind_weaker produced ?_ ?_
  · rintro _ later ⟨⟨extends_, soundLater⟩, _⟩
    exact .of_extends entry.holds extends_ soundLater
  · rintro made middle ⟨made_, apart⟩
    have since := made_.extends_
    have keptBefore : scene.Kept floor graph middle := .of_extends entry.holds since made_.sound
    have entryMade := entry.later since made_.sound
    have isTypeLater : ∀ {later : Graph}, scene.Kept floor graph later → later.IsType type :=
      fun kept => kept.grows.toFollows.isType sound.toClosed isType
    split
    case isTrue missingMade =>
      refine ⟨keptBefore, isTypeLater keptBefore, fun generous => ?_⟩
      rw [made_.given generous] at missingMade
      cases missingMade
    case isFalse there =>
      have present : made.isMissing = false := by simpa using there
      refine Ensures.bind_weaker (approach_ensures supplies entryMade plainNode within)
        (fun _ _ => keptBefore.trans) ?_
      intro arrival later arrives
      cases arrival with
      | refused =>
          obtain ⟨kept, notGenerous, _⟩ := arrives
          have keptAll := keptBefore.trans kept
          exact ⟨keptAll, isTypeLater keptAll, notGenerous⟩
      | reached holder attached =>
          obtain ⟨kept, reached, vacancy⟩ := arrives
          have vacant := vacancy content
            (since.travel?_of_some sound.toClosed entry.known travelled) missing
          have knownTarget := kept.grows.knows (since.follows.knows entry.known)
          have calm : ∀ key ∈ scene.guarded, later.isCallable made = false := by
            intro key isGuarded
            rw [kept.grows.isCallable made_.known]
            exact made_.calm key isGuarded
          have settles := settle_filled plainNode within entryMade.holds kept knownTarget reached
            vacant (kept.grows.knows made_.known)
            (kept.plain (Nat.le_refl floor) made_.known made_.plain) calm
          refine Ensures.bind_weaker settles (fun _ _ => keptBefore.trans) ?_
          intro _ final filled
          have keptAll := keptBefore.trans filled.kept
          refine ⟨keptAll, isTypeLater keptAll, keptAll, filled.kept.grows.knows made_.known,
            present, filled.kept.plain (Nat.le_refl floor) made_.known made_.plain,
            fun isAttached guards => (filled.way isAttached guards).1, ?_⟩
          intro isLost
          obtain ⟨notGenerous, extends_⟩ := filled.lost isLost
          exact ⟨notGenerous, since.trans extends_, fun isolated =>
            (apart isolated).plain.extends extends_ made_.sound.toClosed made_.known⟩

end Scene

end ObjectPath
