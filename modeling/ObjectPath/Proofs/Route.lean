import ObjectPath.Proofs.Filling
import ObjectPath.Proofs.Progress

/-!
# Evaluations in two parts

A write first goes to the object that is to hold the value and then ends: the value is put
there, or the write is given up.  The first part is the walk over all nodes but the last,
followed by the approach of the last node.  It is told apart here, together with what the
walk itself does not keep: whether every array that was made on the way is in its place.
-/

namespace ObjectPath

/-! ## Plain paths -/

/-- The steps of nodes that call no methods, in order. -/
def stepsOf (resolver : Resolver) (nodes : List Node) : List Step :=
  nodes.flatMap (Node.steps resolver)

theorem stepsOf_cons (resolver : Resolver) (node : Node) (rest : List Node) :
    stepsOf resolver (node :: rest) = node.steps resolver ++ stepsOf resolver rest :=
  List.flatMap_cons

namespace Path

/-- Whether a path calls no method. -/
def IsPlain (path : Path) : Prop :=
  ∀ node ∈ path.nodes, node.isPlain = true

variable (resolver : Resolver) (path : Path)

/-- The steps of a path that calls no method, in order. -/
def steps : List Step :=
  stepsOf resolver path.nodes

/-- The last step of a path. -/
def final : Step :=
  path.lastNode.final resolver

/-- The steps before the last one. -/
def leading : List Step :=
  stepsOf resolver path.nodes.dropLast ++ path.lastNode.leading resolver

theorem steps_eq : path.steps resolver = path.leading resolver ++ [path.final resolver] := by
  have nodes : path.nodes = path.nodes.dropLast ++ [path.lastNode] :=
    (List.dropLast_append_getLast path.nodes_ne_nil).symm
  unfold steps leading final stepsOf
  conv_lhs => rw [nodes]
  simp only [List.flatMap_append, List.flatMap_cons, List.flatMap_nil, List.append_nil,
    Node.steps, List.append_assoc]

theorem steps_eq_append :
    path.steps resolver =
      stepsOf resolver path.nodes.dropLast ++ path.lastNode.steps resolver := by
  rw [steps_eq, leading, final, List.append_assoc, Node.steps]

variable {path}

theorem IsPlain.lastNode (plain : path.IsPlain) : path.lastNode.isPlain = true :=
  plain path.lastNode (List.getLast_mem path.nodes_ne_nil)

theorem IsPlain.dropLast (plain : path.IsPlain) :
    ∀ node ∈ path.nodes.dropLast, node.isPlain = true :=
  fun node member => plain node (List.dropLast_subset path.nodes member)

end Path

namespace Session

/-! ## Walks that keep track -/

/-- Where a walk ended: at a position, with every array that was made on the way in its place
or not, or at a node whose value is missing. -/
inductive Track
  | arrived (position : Position) (attached : Bool)
  | stopped (index : Nat) (type : Option Value)

/-- Where a walk ended, whatever became of the arrays. -/
def Track.walk : Track → Walk
  | .arrived position _ => .arrived position
  | .stopped index type => .stopped index type

/-- Walks nodes from a position as `walk` does, and keeps track of arrays that are out of
place. -/
def track (path : Path) (resolver : Resolver) (options : EvaluateOptions) (index : Nat)
    (position : Position) (attached : Bool) : List Node → Session Track
  | [] => pure (.arrived position attached)
  | node :: rest => do
      let value ← onGraph (node.read resolver options.arguments position)
      if value.isMissing then
        match options.factory with
        | none => pure (.stopped index none)
        | some supply =>
            match ← onGraph (node.fill resolver options.arguments supply position) with
            | .refused type => pure (.stopped index (some type))
            | .filled type made inPlace =>
                reportFilled path index node type made
                track path resolver options (index + 1) (.onValue made) (attached && inPlace) rest
      else
        track path resolver options (index + 1) (.onValue value) attached rest

/-! ## Runs on the graph in a row -/

section Graph

variable {α β : Type}

theorem onGraph_pure (value : α) : onGraph (pure value) = pure value :=
  rfl

theorem onGraph_bind (run : Run α) (next : α → Run β) :
    onGraph (run >>= next) = onGraph run >>= fun value => onGraph (next value) := by
  funext world
  cases ended : run world.graph with
  | ok value graph =>
      rw [bind_of_ok (onGraph_of_ok ended)]
      simp only [onGraph, bind_of_ok ended]
  | error fault graph =>
      have failed : onGraph run world = .error fault { world with graph := graph } := by
        simp only [onGraph, ended]
      rw [bind_of_error failed]
      simp only [onGraph, bind_of_error ended]

theorem resolverOf_eq (path : Path) (world : World) :
    resolverOf path world = .ok (world.compiler path.compiler).resolver world :=
  rfl

/-- The resolver of a compiler is the same after a run on the graph. -/
theorem resolverOf_again (path : Path) (run : Resolver → Run α)
    (next : Resolver → α → Resolver → Session β) :
    (resolverOf path >>= fun resolver => onGraph (run resolver) >>= fun value =>
        resolverOf path >>= next resolver value) =
      resolverOf path >>= fun resolver => onGraph (run resolver) >>= fun value =>
        next resolver value resolver := by
  funext world
  have looked : ∀ {γ : Type} (next : Resolver → Session γ) (later : World),
      (resolverOf path >>= next) later = next (later.compiler path.compiler).resolver later :=
    fun _ later => bind_of_ok (resolverOf_eq path later)
  rw [looked, looked]
  cases ended : run (world.compiler path.compiler).resolver world.graph with
  | ok value graph =>
      rw [bind_of_ok (onGraph_of_ok ended), bind_of_ok (onGraph_of_ok ended), looked]
      rfl
  | error fault graph =>
      have failed : onGraph (run (world.compiler path.compiler).resolver) world =
          .error fault { world with graph := graph } := by
        simp only [onGraph, ended]
      rw [bind_of_error failed, bind_of_error failed]

end Graph

/-- Keeping track does not change where a walk goes. -/
theorem walk_eq (path : Path) (resolver : Resolver) (options : EvaluateOptions) (index : Nat)
    (position : Position) (attached : Bool) {nodes : List Node}
    (plain : ∀ node ∈ nodes, node.isPlain = true) :
    walk path resolver options index position nodes =
      track path resolver options index position attached nodes >>= fun arrival =>
        pure arrival.walk := by
  induction nodes generalizing index position attached with
  | nil => rfl
  | cons node rest inductionHypothesis =>
      have later := fun index position attached =>
        inductionHypothesis index position attached fun other member =>
          plain other (List.mem_cons_of_mem node member)
      unfold walk track
      simp only [bind_assoc]
      congr 1
      funext value
      split
      · cases options.factory with
        | none => rfl
        | some supply =>
            simp only [Node.fill, onGraph_bind, bind_assoc]
            congr 1
            funext type
            congr 1
            funext made
            split
            · rfl
            · rw [Node.write_eq made (plain node (List.mem_cons_self ..))]
              simp only [onGraph_bind, bind_assoc]
              congr 1
              funext arrival
              cases arrival with
              | refused => rfl
              | reached holder inPlace =>
                  simp only [Node.finish, onGraph_bind, onGraph_pure, bind_assoc, pure_bind,
                    if_true]
                  congr 1
                  funext _
                  congr 1
                  funext _
                  exact later _ _ _
      · exact later _ _ _

/-! ## Writes in two parts -/

/-- Where a write is to end: at a node before the last one whose value could not be made, at
the last node if no array for it could be made, or at the object that is to hold the value. -/
inductive Destination
  | stopped (index : Nat) (type : Value)
  | refused (position : Position)
  | reached (holder : Value) (attached : Bool)

/-- Goes from a position to the object that is to hold a value. -/
def approach (path : Path) (start : Position) (arguments : Option ArgumentMap)
    (supply : Factory) : Session Destination := do
  match ← track path (← resolverOf path) ⟨arguments, some supply⟩ 0 start true
      path.nodes.dropLast with
  | .stopped index type => pure (.stopped index (type.getD openType))
  | .arrived position attached =>
      match ← onGraph (path.lastNode.approach (← resolverOf path) arguments (some supply)
          position) with
      | .refused => pure (.refused position)
      | .reached holder inPlace => pure (.reached holder (attached && inPlace))

/-- Ends a write. -/
def conclude (path : Path) (arguments : Option ArgumentMap) (value : Value) :
    Destination → Session Unit
  | .stopped index type => abandon path index type
  | .refused position => do
      let type ← onGraph (path.lastNode.typeAt (← resolverOf path) arguments position)
      abandon path (path.size - 1) (← onGraph (Run.arrayOf type))
  | .reached holder _ => do
      onGraph (path.lastNode.settle (← resolverOf path) holder value)

/-- The factory that a write uses. -/
def factoryOf (path : Path) (options : EvaluateOptions) (world : World) : Factory :=
  options.factory.getD (world.factory (world.compiler path.compiler).factory)

/-- Writing a path is going to the holder of the value and ending there. -/
theorem assign_eq {path : Path} (plain : path.IsPlain) (start : Position) (value : Value)
    (options : EvaluateOptions) (world : World) :
    assign path start value options world =
      (approach path start options.arguments (factoryOf path options world) >>=
        conclude path options.arguments value) world := by
  -- What comes after the approach of the last node, with the resolver read again.
  have onward : ∀ position attached arrival,
      (match arrival with
        | .refused => pure (.refused position)
        | .reached holder inPlace => pure (.reached holder (attached && inPlace)) :
          Session Destination) >>= conclude path options.arguments value =
      resolverOf path >>= fun resolver =>
        onGraph (path.lastNode.finish resolver value arrival) >>= fun written =>
          if written = true then pure () else
            onGraph (path.lastNode.typeAt resolver options.arguments position) >>= fun type =>
              onGraph (Run.arrayOf type) >>= abandon path (path.size - 1) := by
    intro position attached arrival
    cases arrival with
    | refused => rfl
    | reached holder inPlace =>
        simp only [pure_bind, conclude, Node.finish, onGraph_bind, onGraph_pure, bind_assoc, if_true]
        congr 1
        funext resolver
        exact (bind_pure _).symm
  unfold assign approach
  refine bind_get.trans (congrFun ?_ world)
  simp only [walkPath, factoryOf, bind_assoc, walk_eq _ _ _ _ _ true plain.dropLast, pure_bind]
  congr 1
  funext resolver
  congr 1
  funext arrival
  cases arrival with
  | stopped index type => rfl
  | arrived position attached =>
      simp only [Track.walk, bind_assoc, Node.write_eq value plain.lastNode, onGraph_bind, onward,
        resolverOf_again]

end Session

end ObjectPath
