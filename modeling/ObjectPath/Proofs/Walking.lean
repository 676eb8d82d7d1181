import ObjectPath.Proofs.Accepting

/-!
# Walks along declared types

The type walk of a static path steps from the members of its class through the types that they
declare.  A walk to one node visits all nodes before it, so a walk that does not fail stands for
the walks to all earlier nodes.
-/

namespace ObjectPath

/-! ## Members of segments -/

/-- The member that the start of a segment names on a class, if it takes no arguments. -/
def Base.member? (resolver : Resolver) (owner : Value) (scope : Scope) : Base → Run (Option Member)
  | .nothing => pure none
  | .field name => do
      let member ← resolver.field owner name scope none
      pure (some (.field member))
  | .method name _ => do
      let member ← resolver.method owner name [] scope none
      pure (some (.method member))

/-- Indices do not matter to the member that a node names. -/
theorem Node.member?_eq (resolver : Resolver) (owner : Value) (scope : Scope) (node : Node)
    (plain : node.argumentKeys = []) :
    node.member? resolver none owner scope = node.form.base.member? resolver owner scope := by
  induction node using Node.argumentKeys.induct with
  | case1 => rfl
  | case2 serial text name keys =>
      obtain rfl : keys = [] := plain
      rfl
  | case3 => rfl
  | case4 serial text index inner inductionHypothesis => exact inductionHypothesis plain

/-! ## Walks -/

/-- The type from which a walk goes on after a node: the element type of its member, or the type as
it was if the node names no member. -/
def typeAfter (owner : Value) : Option Member → Run Value
  | some member => Run.elementType member.type
  | none => pure owner

/-- Types can be walked along the starts of segments: the first one is looked up in the scope that
is given, each later one among the members of instances. -/
inductive Resolves (resolver : Resolver) : List Base → Value → Scope → Graph → Prop
  | nil {owner : Value} {scope : Scope} {graph : Graph} : Resolves resolver [] owner scope graph
  | last {base : Base} {owner : Value} {scope : Scope} {graph later : Graph}
      {member : Option Member} : base.member? resolver owner scope graph = .ok member later →
        Resolves resolver [base] owner scope graph
  | step {base next : Base} {rest : List Base} {owner type : Value} {scope : Scope}
      {graph middle later : Graph} {member : Option Member} :
      base.member? resolver owner scope graph = .ok member middle →
        typeAfter owner member middle = .ok type later →
          Resolves resolver (next :: rest) type .onInstance later →
            Resolves resolver (base :: next :: rest) owner scope graph

section Walks

variable {resolver : Resolver}

/-- A node that takes no arguments is looked up by the start of its segment. -/
theorem memberAlong_zero {node : Node} (plain : node.argumentKeys = []) (rest : List Node)
    (owner : Value) (scope : Scope) :
    memberAlong resolver none (node :: rest) 0 owner scope =
      node.form.base.member? resolver owner scope := by
  rw [memberAlong, node.member?_eq resolver owner scope plain]
  exact bind_pure _

theorem memberAlong_succ (arguments : Option ArgumentMap) (node : Node) (rest : List Node)
    (index : Nat) (owner : Value) (scope : Scope) :
    memberAlong resolver arguments (node :: rest) (index + 1) owner scope = (do
      let type ← typeAfter owner (← node.member? resolver arguments owner scope)
      memberAlong resolver arguments rest index type .onInstance) := by
  rw [memberAlong]
  refine bind_congr fun named => ?_
  cases named <;> rfl

/-- The walk to a node does not fail exactly if the types can be walked along it and the nodes
before it. -/
theorem memberAlong_iff_resolves {nodes : List Node} {index : Nat} (inside : index < nodes.length)
    (plain : ∀ node ∈ nodes.take (index + 1), node.argumentKeys = []) {owner : Value}
    {scope : Scope} {graph : Graph} :
    (∃ member later, memberAlong resolver none nodes index owner scope graph = .ok member later) ↔
      Resolves resolver ((nodes.take (index + 1)).map (·.form.base)) owner scope graph := by
  induction index generalizing nodes owner scope graph with
  | zero =>
      cases nodes with
      | nil => cases inside
      | cons node rest =>
          rw [memberAlong_zero (plain node (List.mem_cons_self ..)), List.take_succ_cons,
            List.take_zero, List.map_singleton]
          constructor
          · rintro ⟨member, later, found⟩
            exact .last found
          · intro resolves
            cases resolves with
            | last found => exact ⟨_, _, found⟩
  | succ index inductionHypothesis =>
      match nodes with
      | [] => cases inside
      | [_] => exact absurd (Nat.lt_of_succ_lt_succ inside) (Nat.not_lt_zero index)
      | node :: next :: rest =>
          have same := node.member?_eq resolver owner scope (plain node (List.mem_cons_self ..))
          have onward := fun {type : Value} {middle : Graph} =>
            @inductionHypothesis (next :: rest) (Nat.lt_of_succ_lt_succ inside)
              (fun other member => plain other (List.mem_cons_of_mem node member))
              type .onInstance middle
          rw [memberAlong_succ, same]
          simp only [List.take_succ_cons, List.map_cons] at onward ⊢
          constructor
          · rintro ⟨member, later, walked⟩
            obtain ⟨named, middle, found, steps⟩ := ok_of_bind walked
            obtain ⟨type, stepped, stepping, rest⟩ := ok_of_bind steps
            exact .step found stepping (onward.1 ⟨member, later, rest⟩)
          · intro resolves
            cases resolves with
            | step found stepping rest =>
                obtain ⟨member, later, walked⟩ := onward.2 rest
                refine ⟨member, later, ?_⟩
                rw [bind_of_ok found]
                exact (bind_of_ok stepping).trans walked

/-- A walk visits every node before the last one. -/
theorem memberAlong_of_later {arguments : Option ArgumentMap} {nodes : List Node}
    {index last : Nat} (notLater : index ≤ last) {owner : Value} {scope : Scope}
    {graph later : Graph} {member : Option Member}
    (walked : memberAlong resolver arguments nodes last owner scope graph = .ok member later) :
    ∃ earlier middle,
      memberAlong resolver arguments nodes index owner scope graph = .ok earlier middle := by
  induction nodes generalizing index last owner scope graph with
  | nil => exact ⟨none, graph, rfl⟩
  | cons node rest inductionHypothesis =>
      cases last with
      | zero =>
          obtain rfl := Nat.le_zero.1 notLater
          exact ⟨member, later, walked⟩
      | succ last =>
          rw [memberAlong_succ] at walked
          obtain ⟨named, middle, found, steps⟩ := ok_of_bind walked
          cases index with
          | zero => exact ⟨named, middle, by rw [memberAlong, bind_of_ok found]; rfl⟩
          | succ index =>
              obtain ⟨type, stepped, stepping, onward⟩ := ok_of_bind steps
              obtain ⟨earlier, between, reached⟩ :=
                inductionHypothesis (Nat.le_of_succ_le_succ notLater) onward
              rw [memberAlong_succ, bind_of_ok found]
              exact ⟨earlier, between, (bind_of_ok stepping).trans reached⟩

end Walks

/-! ## Where a walk stops -/

/-- The starts of the segments before the first one that takes arguments. -/
def Form.leading (segments : List Form) : List Base :=
  (segments.map Form.base).takeWhile (·.keys.isEmpty)

theorem leading_map_form (nodes : List Node) :
    Form.leading (nodes.map Node.form) =
      (nodes.takeWhile (!·.needsArguments)).map (·.form.base) := by
  have same : (fun node : Node => node.form.base.keys.isEmpty) =
      fun node => !node.needsArguments := by
    funext node
    rw [Node.needsArguments, node.argumentKeys_eq, Bool.not_not]
  rw [Form.leading, List.map_map, List.takeWhile_map]
  change (nodes.takeWhile fun node => node.form.base.keys.isEmpty).map _ = _
  rw [same]
  rfl

/-- The node at which a type walk stops is the last one before the first that takes arguments. -/
theorem take_of_walkedIndex? {nodes : List Node} {index : Nat}
    (walked : walkedIndex? nodes = some index) :
    nodes.take (index + 1) = nodes.takeWhile (!·.needsArguments) ∧ index < nodes.length := by
  have isPrefix := List.takeWhile_prefix (l := nodes) (!·.needsArguments)
  unfold walkedIndex? at walked
  split at walked
  · cases walked
  · rename_i count counted
    cases walked
    refine ⟨?_, ?_⟩
    · have taken := List.prefix_iff_eq_take.1 isPrefix
      rw [counted] at taken
      exact taken.symm
    · have shorter := isPrefix.length_le
      omega

theorem takeWhile_of_walkedIndex?_none {nodes : List Node} (walked : walkedIndex? nodes = none) :
    nodes.takeWhile (!·.needsArguments) = [] := by
  unfold walkedIndex? at walked
  split at walked
  · exact List.length_eq_zero_iff.1 (by assumption)
  · cases walked

theorem plain_of_mem_takeWhile {nodes : List Node} {node : Node}
    (member : node ∈ nodes.takeWhile (!·.needsArguments)) : node.argumentKeys = [] := by
  have passes := List.mem_takeWhile_imp member
  simpa [Node.needsArguments] using passes

/-- The leading nodes of a path can be walked exactly if the walk to the node at which it stops
does not fail. -/
theorem resolves_leading_iff {resolver : Resolver} {nodes : List Node} {index : Nat}
    (walked : walkedIndex? nodes = some index) {owner : Value} {graph : Graph} :
    Resolves resolver (Form.leading (nodes.map Node.form)) owner .onClass graph ↔
      ∃ member later, memberAlong resolver none nodes index owner .onClass graph =
        .ok member later := by
  obtain ⟨isTaken, inside⟩ := take_of_walkedIndex? walked
  rw [memberAlong_iff_resolves inside fun node member => by
    rw [isTaken] at member
    exact plain_of_mem_takeWhile member, isTaken, leading_map_form]

/-- One walk along the leading nodes of a path stands for the walks to all of them. -/
theorem resolves_leading_iff_forall {resolver : Resolver} {nodes : List Node} {owner : Value}
    {graph : Graph} :
    Resolves resolver (Form.leading (nodes.map Node.form)) owner .onClass graph ↔
      ∀ index < (Form.leading (nodes.map Node.form)).length, ∃ member later,
        memberAlong resolver none nodes index owner .onClass graph = .ok member later := by
  have length : (Form.leading (nodes.map Node.form)).length =
      (nodes.takeWhile (!·.needsArguments)).length := by
    rw [leading_map_form, List.length_map]
  cases walked : walkedIndex? nodes with
  | none =>
      have nothing := takeWhile_of_walkedIndex?_none walked
      rw [leading_map_form, nothing]
      exact ⟨fun _ _ => nofun, fun _ => .nil⟩
  | some last =>
      have counted : (Form.leading (nodes.map Node.form)).length = last + 1 := by
        obtain ⟨isTaken, inside⟩ := take_of_walkedIndex? walked
        rw [length, ← isTaken, List.length_take_of_le inside]
      rw [resolves_leading_iff walked, counted]
      constructor
      · rintro ⟨member, later, reached⟩ index isBefore
        exact memberAlong_of_later (Nat.le_of_lt_succ isBefore) reached
      · exact fun walks => walks last (Nat.lt_succ_self last)

namespace Session

/-- Wrapped work on the graph gives a value exactly if the run does. -/
theorem wrapping_onGraph {α : Type} (wrap : Fault → Fault) (run : Run α) (world : World) :
    Ensures (wrapping wrap (do let _ ← onGraph run; pure ())) world
      (fun _ _ => ∃ value graph, run world.graph = .ok value graph)
      fun fault _ => (∃ cause, fault = wrap cause) ∧
        ¬ ∃ value graph, run world.graph = .ok value graph := by
  have ran : Ensures (onGraph run) world
      (fun _ _ => ∃ value graph, run world.graph = .ok value graph)
      fun _ _ => ¬ ∃ value graph, run world.graph = .ok value graph := by
    unfold Ensures onGraph
    cases run world.graph with
    | ok value graph => exact ⟨value, graph, rfl⟩
    | error fault graph => exact nofun
  exact Ensures.tryCatch (ran.bind fun _ _ gives => Ensures.pure gives) fun cause _ fails =>
    Ensures.throw ⟨⟨cause, rfl⟩, fails⟩

/-- The declared types of a path are walked, or the fault names the path. -/
theorem checkTypes_resolves (place : Nat) (source typeName : String) (owner : Value)
    (nodes : List Node) (world : World) :
    Ensures (checkTypes place source typeName owner nodes) world
      (fun _ _ => Resolves (world.compiler place).resolver (Form.leading (nodes.map Node.form))
        owner .onClass world.graph)
      fun fault _ => (∃ cause, fault =
          .invalidExpression source (.unresolved typeName) (some cause)) ∧
        ¬ Resolves (world.compiler place).resolver (Form.leading (nodes.map Node.form))
          owner .onClass world.graph := by
  unfold checkTypes
  cases walked : walkedIndex? nodes with
  | none =>
      have nothing := takeWhile_of_walkedIndex?_none walked
      rw [leading_map_form, nothing]
      exact Ensures.pure .nil
  | some index =>
      rw [resolves_leading_iff walked]
      exact Ensures.get_bind (wrapping_onGraph _ _ world)

end Session

end ObjectPath
