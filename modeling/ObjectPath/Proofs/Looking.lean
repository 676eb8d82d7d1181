import ObjectPath.Proofs.Route

/-!
# Reads without a factory

A read without a factory leaves the world as it is and gives what the steps of its path lead
to.  A walk with a factory does the same as long as no value is missing on its way.
-/

namespace ObjectPath

open Graph

/-! ## Ways in parts -/

theorem Graph.travel?_split {graph : Graph} {value content : Value} {first second : List Step}
    (travelled : graph.travel? value (first ++ second) = some content)
    (present : content.isMissing = false) :
    ∃ middle, graph.travel? value first = some middle ∧ middle.isMissing = false ∧
      graph.travel? middle second = some content := by
  rw [travel?_append] at travelled
  obtain ⟨middle, travelledFirst, onward⟩ := Option.bind_eq_some_iff.1 travelled
  refine ⟨middle, travelledFirst, ?_, onward⟩
  by_contra missing
  obtain ⟨nothing, travelledNothing, nothingMissing⟩ :=
    graph.travel?_of_isMissing (Bool.not_eq_false _ ▸ missing) second
  rw [onward, Option.some.injEq] at travelledNothing
  rw [travelledNothing, nothingMissing] at present
  cases present

theorem Within.refl (steps : List Step) : Within (steps.map Step.key) steps :=
  fun _ member => List.mem_map_of_mem member

namespace Session

variable {world : World} {path : Path} {resolver : Resolver} {target content : Value}
  {nodes : List Node}

section Reads

variable (classed : world.graph.Classed) {arguments : Option ArgumentMap}

include classed

theorem read_of_travel? {node : Node} (plainNode : node.isPlain = true)
    (present : target.isMissing = false)
    (travelled : world.graph.travel? target (node.steps resolver) = some content) :
    onGraph (node.read resolver arguments (.onValue target)) world = .ok content world := by
  have answers : Answers _ world.graph (world.graph.Sound ∧ world.graph.Plain _ 0 target) _ :=
    Node.read_answers classed present arguments plainNode (Within.refl (node.steps resolver))
  rw [travelled] at answers
  exact onGraph_of_ok answers

/-- A walk past values that are there changes nothing, whatever factory is given. -/
theorem track_of_present {options : EvaluateOptions} (index : Nat) (attached : Bool)
    (plainNodes : ∀ node ∈ nodes, node.isPlain = true) (present : target.isMissing = false)
    (travelled : world.graph.travel? target (stepsOf resolver nodes) = some content)
    (there : content.isMissing = false) :
    track path resolver options index (.onValue target) attached nodes world =
      .ok (.arrived (.onValue content) attached) world := by
  induction nodes generalizing target index with
  | nil =>
      cases travelled
      rfl
  | cons node rest inductionHypothesis =>
      rw [stepsOf_cons] at travelled
      obtain ⟨next, travelledNode, nextThere, onward⟩ := travel?_split travelled there
      unfold track
      rw [bind_of_ok (read_of_travel? classed (plainNodes node (List.mem_cons_self ..)) present
        travelledNode), nextThere, if_neg Bool.false_ne_true]
      exact inductionHypothesis (index + 1)
        (fun other member => plainNodes other (List.mem_cons_of_mem node member)) nextThere onward

/-- A walk without a factory stops at the first missing value. -/
theorem track_of_missing (index : Nat) (attached : Bool)
    (plainNodes : ∀ node ∈ nodes, node.isPlain = true) (present : target.isMissing = false)
    (travelled : world.graph.travel? target (stepsOf resolver nodes) = some content)
    (missing : content.isMissing = true) :
    ∃ stop, track path resolver ⟨arguments, none⟩ index (.onValue target) attached nodes world =
      .ok (.stopped stop none) world := by
  induction nodes generalizing target index with
  | nil =>
      cases travelled
      rw [missing] at present
      cases present
  | cons node rest inductionHypothesis =>
      rw [stepsOf_cons, travel?_append] at travelled
      obtain ⟨next, travelledNode, onward⟩ := Option.bind_eq_some_iff.1 travelled
      unfold track
      rw [bind_of_ok (read_of_travel? classed (plainNodes node (List.mem_cons_self ..)) present
        travelledNode)]
      cases nextMissing : next.isMissing with
      | true => exact ⟨index, rfl⟩
      | false =>
          rw [if_neg Bool.false_ne_true]
          exact inductionHypothesis (index + 1)
            (fun other member => plainNodes other (List.mem_cons_of_mem node member)) nextMissing
            onward

end Reads

/-- A walk without a factory fails where its steps lead nowhere, and leaves the world alone. -/
theorem track_of_none {keys : List Key} {floor : Nat} {arguments : Option ArgumentMap}
    (sound : world.graph.Sound) (index : Nat) (attached : Bool)
    (plainNodes : ∀ node ∈ nodes, node.isPlain = true)
    (within : Within keys (stepsOf resolver nodes)) (present : target.isMissing = false)
    (plain : world.graph.Plain keys floor target)
    (travelled : world.graph.travel? target (stepsOf resolver nodes) = none) :
    ∃ fault, track path resolver ⟨arguments, none⟩ index (.onValue target) attached nodes world =
      .error fault world := by
  induction nodes generalizing target index with
  | nil => cases travelled
  | cons node rest inductionHypothesis =>
      have plainNode := plainNodes node (List.mem_cons_self ..)
      rw [stepsOf_cons] at within travelled
      obtain ⟨withinNode, withinRest⟩ := Within.append.1 within
      have answers : Answers _ world.graph (world.graph.Sound ∧
          world.graph.Plain keys floor target) _ :=
        Node.read_answers sound.toClassed present arguments plainNode withinNode
      rw [travel?_append] at travelled
      unfold track
      cases travelledNode : world.graph.travel? target (node.steps resolver) with
      | none =>
          rw [travelledNode] at answers
          obtain ⟨fault, ended⟩ := onGraph_answers answers ⟨sound, plain⟩
          exact ⟨fault, bind_of_error ended⟩
      | some next =>
          rw [travelledNode, Option.bind_some] at travelled
          rw [bind_of_ok (read_of_travel? sound.toClassed plainNode present travelledNode)]
          cases nextMissing : next.isMissing with
          | true =>
              obtain ⟨nothing, travelledNothing, _⟩ :=
                world.graph.travel?_of_isMissing nextMissing (stepsOf resolver rest)
              rw [travelled] at travelledNothing
              cases travelledNothing
          | false =>
              rw [if_neg Bool.false_ne_true]
              exact inductionHypothesis (index + 1)
                (fun other member => plainNodes other (List.mem_cons_of_mem node member))
                withinRest nextMissing (plain.travel? withinNode travelledNode) travelled

/-! ## Reads of paths -/

/-- A read without a factory gives what the steps of the path lead to, and leaves the world
alone on every outcome. -/
theorem evaluate_answers {keys : List Key} {floor : Nat} {arguments : Option ArgumentMap}
    (plainPath : path.IsPlain) (classed : world.graph.Classed)
    (same : (world.compiler path.compiler).resolver = resolver)
    (within : Within keys (path.steps resolver)) (present : target.isMissing = false) :
    Answers (evaluate path (.onValue target) ⟨arguments, none⟩) world
      (world.graph.Sound ∧ world.graph.Plain keys floor target)
      ((world.graph.travel? target (path.steps resolver)).map Value.orNull) := by
  rw [Path.steps_eq_append] at within ⊢
  obtain ⟨withinFirst, withinLast⟩ := Within.append.1 within
  have walked : walkPath path (.onValue target) ⟨arguments, none⟩ world =
      (track path resolver ⟨arguments, none⟩ 0 (.onValue target) true path.nodes.dropLast >>=
        fun arrival => pure arrival.walk) world := by
    unfold walkPath
    rw [bind_of_ok (resolverOf_eq path world), same, walk_eq _ _ _ _ _ true plainPath.dropLast]
  rw [travel?_append]
  unfold evaluate
  cases travelled : world.graph.travel? target (stepsOf resolver path.nodes.dropLast) with
  | none =>
      rintro ⟨sound, plain⟩
      obtain ⟨fault, ended⟩ := track_of_none sound 0 true plainPath.dropLast withinFirst present
        plain travelled
      exact ⟨fault, bind_of_error (walked.trans (bind_of_error ended))⟩
  | some content =>
      cases missing : content.isMissing with
      | true =>
          obtain ⟨stop, ended⟩ := track_of_missing classed 0 true plainPath.dropLast present
            travelled missing
          obtain ⟨nothing, travelledNothing, nothingMissing⟩ :=
            world.graph.travel?_of_isMissing missing (path.lastNode.steps resolver)
          refine Answers.ok_bind (walked.trans (bind_of_ok ended)) ?_
          rw [Option.bind_some, travelledNothing, Option.map_some, Value.orNull, nothingMissing]
          rfl
      | false =>
          refine Answers.ok_bind (walked.trans (bind_of_ok (track_of_present classed 0 true
            plainPath.dropLast present travelled missing))) ?_
          refine Answers.ok_bind (resolverOf_eq path world) ?_
          rw [same, Option.bind_some, Option.map_eq_bind]
          have last : Answers _ world (world.graph.Sound ∧ world.graph.Plain keys floor content) _ :=
            onGraph_answers (Node.read_answers classed missing arguments plainPath.lastNode
              withinLast)
          exact Answers.bind (Answers.mono last fun isFirm =>
            ⟨isFirm.1, isFirm.2.travel? withinFirst travelled⟩) fun _ _ => rfl

/-! ## Writes along values that are there -/

/-- If the holder of the value of a node is there already, the node finds it and makes nothing. -/
theorem approach_node_of_present (classed : world.graph.Classed) {arguments : Option ArgumentMap}
    {factory : Option Factory} {node : Node} (plainNode : node.isPlain = true)
    (present : target.isMissing = false)
    (travelled : world.graph.travel? target (node.leading resolver) = some content)
    (there : content.isMissing = false) (opens : world.graph.Opens content (node.final resolver)) :
    onGraph (node.approach resolver arguments factory (.onValue target)) world =
      .ok (.reached content true) world := by
  refine onGraph_of_ok ?_
  cases node, plainNode using Node.plainInduction with
  | field serial name =>
      cases travelled
      obtain ⟨field, isField⟩ := Option.isSome_iff_exists.1 opens
      have found : Answers (Node.fieldAt resolver name (.onValue target)) world.graph False _ :=
        Node.fieldAt_answers classed present False.elim False.elim
      rw [isField] at found
      exact bind_of_ok found
  | element serial text index =>
      cases travelled
      rfl
  | nested serial text index inner plainInner _ =>
      have answers : Answers _ world.graph (world.graph.Sound ∧ world.graph.Plain _ 0 target) _ :=
        Node.read_answers classed present arguments plainInner (Within.refl (inner.steps resolver))
      rw [show world.graph.travel? target (inner.steps resolver) = some content from travelled]
        at answers
      unfold Node.approach
      rw [bind_of_ok answers, there, if_neg Bool.false_ne_true]
      rfl

/-- If the holder of the last slot is there already, a write finds it and makes nothing. -/
theorem approach_of_present (classed : world.graph.Classed) {arguments : Option ArgumentMap}
    {supply : Factory} (plainPath : path.IsPlain)
    (same : (world.compiler path.compiler).resolver = resolver)
    (present : target.isMissing = false)
    (travelled : world.graph.travel? target (path.leading resolver) = some content)
    (there : content.isMissing = false) (opens : world.graph.Opens content (path.final resolver)) :
    approach path (.onValue target) arguments supply world = .ok (.reached content true) world := by
  obtain ⟨middle, travelledFirst, middleThere, onward⟩ := travel?_split travelled there
  unfold approach
  rw [bind_of_ok (resolverOf_eq path world), same,
    bind_of_ok (track_of_present classed 0 true plainPath.dropLast present travelledFirst middleThere)]
  dsimp only
  rw [bind_of_ok (resolverOf_eq path world), same,
    bind_of_ok (approach_node_of_present classed plainPath.lastNode middleThere onward there opens)]
  rfl

end Session

end ObjectPath
