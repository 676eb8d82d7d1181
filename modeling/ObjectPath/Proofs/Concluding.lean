import ObjectPath.Proofs.Vivifying
import ObjectPath.Proofs.ReadBack

/-!
# Where typed writes go

A write in a typed set of values goes to an object of the set, and the slot that it is to fill is
asked for the type that the last node of the path has.  Whatever happens on the way, the set
stays typed.
-/

namespace ObjectPath

open Graph

/-- What a computation ends with satisfies a condition, and is what it ends with. -/
theorem Ensures.ended {σ α : Type} {work : EStateM Fault σ α} {state : σ} {good : α → σ → Prop}
    {bad : Fault → σ → Prop} (ensures : Ensures work state good bad) :
    Ensures work state (fun value later => work state = .ok value later ∧ good value later) bad := by
  unfold Ensures at ensures ⊢
  split
  · rename_i value later ended
    rw [ended] at ensures
    exact ⟨ended, ensures⟩
  · rename_i fault later ended
    rwa [ended] at ensures

namespace Session

/-- The last node of a path has a type on the value that the nodes before it come to. -/
def AsksFor (path : Path) (target : Value) (arguments : Option ArgumentMap) (supply : Factory)
    (world : World) (type : Value) (middle : World) : Prop :=
  ∃ value, walkPath path (.onValue target) ⟨arguments, some supply⟩ world =
      .ok (.arrived (.onValue value)) middle ∧
    path.lastNode.typeAt (path.resolverIn world) arguments (.onValue value) middle.graph =
      .ok type middle.graph

end Session

namespace Scene

open Session

variable {scene : Scene} {steps : List Step} {base typing : Typing} {path : Path} {target : Value}
  {arguments : Option ArgumentMap} {supply : Factory} {world : World}

/-- A write has come to an object of the set, to a slot of the type that the last node has. -/
structure Targets (scene : Scene) (steps : List Step) (base : Typing) (path : Path)
    (target : Value) (arguments : Option ArgumentMap) (supply : Factory) (world : World)
    (holder : Value) (graph : Graph) (typing : Typing) : Prop where
  isInside : typing.inside holder
  slotType : ∃ type middle between, AsksFor path target arguments supply world type middle ∧
    scene.Stage steps base middle.graph between ∧ between.Continues middle.graph graph typing ∧
    middle.graph.Knows type ∧
    (graph.Names steps holder (path.final (path.resolverIn world)) →
      typing.stepType graph holder (path.final (path.resolverIn world)) = type)

theorem destination_unfolds (supplies : scene.Supplies 0 supply arguments)
    (provides : scene.Provides steps base supply arguments) (soundStart : scene.start.Sound)
    (lettered : scene.start.Lettered steps) (keys : scene.keys = steps.map Step.key)
    (plainPath : path.IsPlain) (rooted : ∀ node ∈ path.nodes, node.isRooted = true)
    (listed : path.steps (path.resolverIn world) ⊆ steps) (quiet : world.Quiet)
    (stage : scene.Stage steps base world.graph typing) (isInside : typing.inside target)
    (present : target.isMissing = false) :
    Ensures (Session.approach path (.onValue target) arguments supply) world
      (fun destination later => scene.Unfolds steps base world.graph typing later.graph fun final =>
        ∀ holder attached, destination = .reached holder attached →
          scene.Targets steps base path target arguments supply world holder later.graph final)
      fun _ later => scene.Unfolds steps base world.graph typing later.graph fun _ => True := by
  rw [Path.steps_eq_append] at listed
  have listedFirst : stepsOf (path.resolverIn world) path.nodes.dropLast ⊆ steps :=
    fun step member => listed (List.mem_append_left _ member)
  have listedLast : path.lastNode.steps (path.resolverIn world) ⊆ steps :=
    fun step member => listed (List.mem_append_right _ member)
  have withinFirst : Within scene.keys (stepsOf (path.resolverIn world) path.nodes.dropLast) := by
    intro step member
    rw [keys]
    exact List.mem_map_of_mem (listedFirst member)
  have withinLast := within_of_subset keys listedLast
  have sound := stage.holds.sound
  unfold Session.approach
  refine Ensures.ok_bind (resolverOf_eq path world) ?_
  have goes := Ensures.ended (Ensures.and
    (track_ensures path plainPath.dropLast withinFirst supplies 0 true quiet stage.holds
      (Nat.zero_le _) (stage.typed.known isInside) present (stage.plain keys isInside))
    (track_unfolds supplies provides soundStart lettered keys path plainPath.dropLast
      (fun node member => rooted node (List.dropLast_subset path.nodes member)) listedFirst 0 true
      quiet stage isInside present))
  refine Ensures.bind (goes.mono (fun _ _ => id) fun _ _ => And.right) ?_
  rintro arrival middle ⟨walked, ⟨onward, ends⟩, unfolds⟩
  cases arrival with
  | stopped index type =>
      exact unfolds.mono fun _ _ _ _ impossible => by cases impossible
  | arrived position inPlace =>
      obtain ⟨value, rfl, comes⟩ := ends
      obtain ⟨between, stageMiddle, continues, isInsideValue⟩ := unfolds
      have insideValue := isInsideValue value inPlace rfl
      refine Ensures.ok_bind (resolverOf_eq path middle) ?_
      rw [onward.advances.resolver]
      refine Ensures.bind_weaker (onGraph_ensures (approach_unfolds supplies provides soundStart
        lettered keys stageMiddle insideValue comes.present plainPath.lastNode (rooted _
        (List.getLast_mem path.nodes_ne_nil)) listedLast)) ?_ ?_
      · rintro _ later ⟨_, unfolds⟩
        exact unfolds.prepend sound continues
      · rintro arrival later ⟨_, unfolds⟩
        cases arrival with
        | refused =>
            exact (unfolds.prepend sound continues).mono fun _ _ _ _ impossible => by
              cases impossible
        | reached holder inPlaceLast =>
            obtain ⟨final, stageLater, onwardLater, isInsideHolder, type, hasType, slotType⟩ :=
              unfolds
            refine ⟨final, stageLater, continues.trans sound onwardLater, ?_⟩
            rintro _ _ ⟨⟩
            have soundMiddle := stageMiddle.holds.sound
            have answers : Answers (path.lastNode.typeAt (path.resolverIn world) arguments
                (.onValue value)) middle.graph (middle.graph.Plain scene.keys 0 value)
                (path.lastNode.typeOn? middle.graph (path.resolverIn world) value) :=
              Node.typeAt_answers soundMiddle comes.present arguments plainPath.lastNode withinLast
            rw [show path.lastNode.typeOn? middle.graph (path.resolverIn world) value = some type
              from hasType] at answers
            have came : walkPath path (.onValue target) ⟨arguments, some supply⟩ world =
                .ok (.arrived (.onValue value)) middle := by
              unfold walkPath
              rw [bind_of_ok (resolverOf_eq path world), walk_eq _ _ _ _ _ true plainPath.dropLast]
              exact bind_of_ok walked
            exact ⟨isInsideHolder, type, middle, between, ⟨value, came, answers⟩, stageMiddle,
              onwardLater, Node.typeOn?_known soundMiddle plainPath.lastNode hasType, slotType⟩

end Scene

end ObjectPath
