import ObjectPath.Proofs.JoinedReads
import ObjectPath.Proofs.Twins

/-!
# Writing a joined path

Where the first path leads to a value, a write through a joined path does what a write through
the second path does on that value: it fills, gives up and fails at the same nodes, counted from
the first path, and leaves the same graph.  Only the reports tell the two apart.
-/

namespace ObjectPath

/-! ## Events that correspond -/

namespace Event

/-- How the events of a write through a joined path correspond to those of a write through its
second path: the joined path is named in the place of the second one, and the indices are those of
the second path behind the nodes of the first one.  Whatever the handlers report of new paths is
the same. -/
inductive Retells (joined tail : Path) (shift : Nat) : Event → Event → Prop
  | filled (compiler index : Nat) (node : String) (typeName value : Value) (moment : Graph) :
      Retells joined tail shift
        (.filled compiler joined.source (index + shift) node typeName value moment)
        (.filled compiler tail.source index node typeName value moment)
  | abandoned (compiler index : Nat) (node : String) (typeName : Value) :
      Retells joined tail shift
        (.abandoned compiler joined.source (index + shift) node typeName)
        (.abandoned compiler tail.source index node typeName)
  | handled (name : String) (kind : EventKind) :
      Retells joined tail shift (.handled name kind joined.source) (.handled name kind tail.source)
  | compiled (compiler : Nat) (expression : String) (nodes : Nat) (rootType : Option String) :
      Retells joined tail shift (.compiled compiler expression nodes rootType)
        (.compiled compiler expression nodes rootType)
  | handledOther (name : String) (kind : EventKind) (expression : String) :
      Retells joined tail shift (.handled name kind expression) (.handled name kind expression)

end Event

namespace Session

open World Node

theorem echoes_retells (joined tail : Path) (shift : Nat) :
    Echoes (Event.Retells joined tail shift) where
  compiled := .compiled
  handled := .handledOther

/-! ## Walks past what is there -/

/-- How a write ends where its walk ended. -/
def endWrite (path : Path) (value : Value) (options : EvaluateOptions) : Walk → Session Unit
  | .stopped index type => abandon path index (type.getD openType)
  | .arrived position => do
      let resolver ← resolverOf path
      let written ← onGraph
        (path.lastNode.write resolver options.arguments options.factory position value)
      if written then
        pure ()
      else
        let type ← onGraph (path.lastNode.typeAt resolver options.arguments position)
        abandon path (path.size - 1) (← onGraph (Run.arrayOf type))

theorem assign_eq_walk (path : Path) (start : Position) (value : Value)
    (options : EvaluateOptions) (world : World) :
    assign path start value options world =
      (walk path (path.resolverIn world)
          ⟨options.arguments, some (factoryOf path options world)⟩ 0 start path.nodes.dropLast >>=
        endWrite path value ⟨options.arguments, some (factoryOf path options world)⟩) world := by
  unfold assign
  rw [bind_get, walkPath, bind_assoc, bind_of_ok (resolverOf_eq path world)]
  congr 2

/-- What comes after a computation depends only on what it came to. -/
theorem bind_congr_run {σ α β : Type} {work other : EStateM Fault σ α} {state start : σ}
    (same : work state = other start) (next : α → EStateM Fault σ β) :
    (work >>= next) state = (other >>= next) start :=
  bind_congr_ok same fun _ _ _ => rfl

/-- A walk with a factory passes nodes that lead to a value without a factory. -/
theorem walk_of_readAll {path : Path} {resolver : Resolver} {options : EvaluateOptions}
    (index : Nat) {target middle : Value} {first : List Node} (rest : List Node) {world : World}
    {graph : Graph}
    (reads : readAll resolver options.arguments target first world.graph = .ok middle graph)
    (present : middle.isMissing = false) :
    walk path resolver options index (.onValue target) (first ++ rest) world =
      walk path resolver options (index + first.length) (.onValue middle) rest
        { world with graph := graph } := by
  induction first generalizing index target world with
  | nil =>
      rw [readAll] at reads
      cases reads
      have there : target.isMissing = false := by
        cases missing : target.isMissing with
        | false => rfl
        | true =>
            rw [Value.orNull, missing, if_pos rfl] at present
            cases present
      rw [Value.orNull, there, if_neg Bool.false_ne_true]
      rfl
  | cons node others inductionHypothesis =>
      cases missing : target.isMissing with
      | true =>
          rw [readAll_of_isMissing _ _ missing] at reads
          cases reads
          cases present
      | false =>
          rw [readAll, missing, if_neg Bool.false_ne_true] at reads
          obtain ⟨next, between, ended, onward⟩ := ok_of_bind reads
          have there : next.isMissing = false := by
            cases missingNext : next.isMissing with
            | false => rfl
            | true =>
                rw [readAll_of_isMissing _ _ missingNext] at onward
                cases onward
                cases present
          rw [List.cons_append, walk, bind_of_ok (onGraph_of_ok ended), there,
            if_neg Bool.false_ne_true, List.length_cons, Nat.add_comm others.length,
            ← Nat.add_assoc]
          exact inductionHypothesis (index + 1) onward

/-! ## Writes in step -/

section InStep

variable {path tail joined : Path} (joins : Joins path tail joined) {base : List Event}

include joins

/-- The nodes of a joined path, in two parts. -/
theorem Joins.exists_parts :
    ∃ front back : List Node, joined.nodes = front ++ back ∧
      front.map Node.bare = path.nodes.map Node.bare ∧
      back.map Node.bare = tail.nodes.map Node.bare := by
  have nodes := joins.nodes
  rw [List.map_append] at nodes
  exact List.map_eq_append_iff.1 nodes

theorem Joins.size : joined.size = path.size + tail.size := by
  have same := congrArg List.length joins.nodes
  rwa [List.length_map, List.length_map, List.length_append] at same

theorem Joins.text_getElem? (index : Nat) :
    joined.nodes[index + path.size]?.map Node.text = tail.nodes[index]?.map Node.text := by
  have texts : ∀ nodes : List Node, nodes.map Node.text = (nodes.map Node.bare).map Node.text := by
    intro nodes
    rw [List.map_map]
    exact List.map_congr_left fun node _ => node.text_bare.symm
  have same : joined.nodes.map Node.text = (path.nodes ++ tail.nodes).map Node.text := by
    rw [texts, joins.nodes, ← texts]
  rw [← List.getElem?_map, same, List.map_append,
    List.getElem?_append_right (by rw [List.length_map, Path.size]; omega), List.length_map,
    Path.size, Nat.add_sub_cancel, List.getElem?_map]

theorem Joins.compilers : joined.compiler = tail.compiler :=
  joins.compiler.trans joins.compilerTail.symm

theorem Joins.parallel_reportFilled (index : Nat) {node other : Node}
    (sameNode : node.bare = other.bare) (type value : Value) :
    Parallel (Twins True (Event.Retells joined tail path.size) base)
      (reportFilled joined (index + path.size) node type value)
      (reportFilled tail index other type value) := by
  have text : node.text = other.text := by
    rw [← node.text_bare, sameNode, other.text_bare]
  refine (parallel_onGraph _).bind fun typeName => Parallel.get_bind fun first second twins => ?_
  rw [twins.graph, joins.compilers, text]
  exact parallel_emit (echoes_retells ..) _ _ (.filled ..) (fun _ _ => .handled ..) first second twins

theorem Joins.parallel_abandon (index : Nat) (type : Value) :
    Parallel (Twins True (Event.Retells joined tail path.size) base)
      (abandon joined (index + path.size) type) (abandon tail index type) := by
  refine (parallel_onGraph _).bind fun typeName => ?_
  dsimp only
  rw [joins.compilers, joins.text_getElem?]
  refine (parallel_emit (echoes_retells ..) _ _ (.abandoned ..) fun _ _ => .handled ..).bind
    fun _ => Parallel.get_bind fun first second twins => ?_
  rw [twins.strict trivial]
  cases (second.compiler tail.compiler).strictWrites with
  | false => exact .ok twins
  | true =>
      exact ((parallel_onGraph _).bind fun _ => (parallel_onGraph _).bind fun _ =>
        Parallel.throw _) first second twins

theorem Joins.parallel_resolverOf :
    Parallel (Twins True (Event.Retells joined tail path.size) base) (resolverOf joined)
      (resolverOf tail) := by
  intro first second twins
  rw [resolverOf_eq, resolverOf_eq, joins.compilers, twins.compiler]
  exact .ok twins

theorem Joins.parallel_walk {α : Type} (resolver : Resolver) (options : EvaluateOptions)
    (index : Nat) (position : Position) {nodes others : List Node}
    (sameNodes : nodes.map Node.bare = others.map Node.bare) {next onward : Walk → Session α}
    (stopped : ∀ index type, Parallel (Twins True (Event.Retells joined tail path.size) base)
      (next (.stopped (index + path.size) type)) (onward (.stopped index type)))
    (arrived : ∀ position, Parallel (Twins True (Event.Retells joined tail path.size) base)
      (next (.arrived position)) (onward (.arrived position))) :
    Parallel (Twins True (Event.Retells joined tail path.size) base)
      (walk joined resolver options (index + path.size) position nodes >>= next)
      (walk tail resolver options index position others >>= onward) := by
  -- Induction on the nodes of the joined path. Both walks do the same on the graph, so they differ
  -- in nothing but their indices.
  induction nodes generalizing index position others with
  | nil =>
      cases others with
      | nil => exact arrived position
      | cons other rest => cases sameNodes
  | cons node nodes inductionHypothesis =>
      cases others with
      | nil => cases sameNodes
      | cons other others =>
          obtain ⟨sameNode, sameRest⟩ := List.cons.inj sameNodes
          have continues := fun position => inductionHypothesis (index + 1) position sameRest
          rw [Nat.add_right_comm] at continues
          have reads : node.read resolver options.arguments position =
              other.read resolver options.arguments position := by
            rw [← read_bare, sameNode, read_bare]
          have types : node.typeAt resolver options.arguments position =
              other.typeAt resolver options.arguments position := by
            rw [← typeAt_bare, sameNode, typeAt_bare]
          have writes : ∀ value, node.write resolver options.arguments options.factory position
              value = other.write resolver options.arguments options.factory position value := by
            intro value
            rw [← write_bare, sameNode, write_bare]
          rw [walk, walk, bind_assoc, bind_assoc, reads]
          refine (parallel_onGraph _).bind fun value => ?_
          cases value.isMissing with
          | false => exact continues (.onValue value)
          | true =>
              cases given : options.factory with
              | none => exact stopped index none
              | some supply =>
                  rw [given] at writes
                  rw [if_pos rfl, if_pos rfl]
                  dsimp only
                  rw [bind_assoc, bind_assoc, types]
                  refine (parallel_onGraph _).bind fun type => ?_
                  rw [bind_assoc, bind_assoc]
                  refine (parallel_onGraph _).bind fun made => ?_
                  cases made.isMissing with
                  | true => exact stopped index (some type)
                  | false =>
                      rw [if_neg Bool.false_ne_true, if_neg Bool.false_ne_true, bind_assoc,
                        bind_assoc, writes]
                      refine (parallel_onGraph _).bind fun written => ?_
                      cases written with
                      | false => exact stopped index (some type)
                      | true =>
                          rw [if_pos rfl, if_pos rfl, bind_assoc, bind_assoc]
                          exact (joins.parallel_reportFilled index sameNode type made).bind
                            fun _ => continues (.onValue made)

theorem Joins.lastNode : joined.lastNode.bare = tail.lastNode.bare := by
  have last : ∀ path : Path, (path.nodes.map Node.bare).getLast? = some path.lastNode.bare := by
    intro path
    rw [List.getLast?_map, List.getLast?_eq_some_getLast path.nodes_ne_nil]
    rfl
  have same := last joined
  rw [joins.nodes, List.map_append, List.getLast?_append_of_ne_nil _ (by simp [tail.nodes_ne_nil]),
    last tail] at same
  exact (Option.some.inj same).symm

theorem Joins.parallel_arrived (value : Value) (options : EvaluateOptions) (position : Position) :
    Parallel (Twins True (Event.Retells joined tail path.size) base)
      (endWrite joined value options (.arrived position))
      (endWrite tail value options (.arrived position)) := by
  refine joins.parallel_resolverOf.bind fun resolver => ?_
  have size : joined.size - 1 = tail.size - 1 + path.size := by
    have some : 0 < tail.size := List.length_pos_iff.2 tail.nodes_ne_nil
    rw [joins.size]
    omega
  rw [← write_bare, joins.lastNode, write_bare, ← typeAt_bare, joins.lastNode, typeAt_bare, size]
  refine (parallel_onGraph _).bind fun written => ?_
  cases written with
  | true => exact Parallel.pure ()
  | false =>
      exact (parallel_onGraph _).bind fun type => (parallel_onGraph _).bind fun asked =>
        joins.parallel_abandon (tail.size - 1) asked

/-- A write through a joined path goes on like a write through the second path from the value that
the first path leads to. -/
theorem Joins.mirrors_assign {options : EvaluateOptions} {target middle : Value} {now : World}
    {graph : Graph}
    (reads : readAll (path.resolverIn now) options.arguments target path.nodes now.graph =
      .ok middle graph)
    (present : middle.isMissing = false) (value : Value) :
    Mirrors (Twins True (Event.Retells joined tail path.size) now.events)
      (assign joined (.onValue target) value options now)
      (assign tail (.onValue middle) value options { now with graph := graph }) := by
  obtain ⟨front, back, nodes, sameFront, sameBack⟩ := joins.exists_parts
  have some : back ≠ [] := by
    rintro rfl
    exact tail.nodes_ne_nil (List.map_eq_nil_iff.1 sameBack.symm)
  have length : front.length = path.size := by
    have same := congrArg List.length sameFront
    rwa [List.length_map, List.length_map] at same
  have readsFront : readAll (joined.resolverIn now) options.arguments target front now.graph =
      .ok middle graph := by
    rw [joins.resolverIn, ← readAll_map_bare, sameFront, readAll_map_bare, reads]
  have sameRest : back.dropLast.map Node.bare = tail.nodes.dropLast.map Node.bare := by
    rw [List.map_dropLast, sameBack, List.map_dropLast]
  have factory : factoryOf tail options { now with graph := graph } =
      factoryOf joined options now := by
    rw [factoryOf, factoryOf, joins.compilers]
    rfl
  have resolver : tail.resolverIn { now with graph := graph } = joined.resolverIn now := by
    rw [joins.resolverIn, ← joins.resolverIn_tail]
    rfl
  rw [assign_eq_walk, assign_eq_walk, factory, resolver, nodes,
    List.dropLast_append_of_ne_nil some]
  generalize factoryOf joined options now = supply
  -- The walk past the first path leaves the world in which the second write starts.
  have walked : walk joined (joined.resolverIn now) ⟨options.arguments, Option.some supply⟩ 0
        (.onValue target) (front ++ back.dropLast) now =
      walk joined (joined.resolverIn now) ⟨options.arguments, Option.some supply⟩
        (0 + front.length) (.onValue middle) back.dropLast { now with graph := graph } :=
    walk_of_readAll 0 back.dropLast readsFront present
  rw [bind_congr_run walked, length]
  exact joins.parallel_walk _ _ 0 (.onValue middle) sameRest
    (fun index type => joins.parallel_abandon index (type.getD openType))
    (fun position => joins.parallel_arrived value _ position) _ _
    (Twins.refl { now with graph := graph })

end InStep

/-! ## Reads of plain data that end well -/

section Spared

variable {graph : Graph} {keys : List Key} {floor : Nat}

theorem findField_spares {target content : Value} {name : String}
    (shown : graph.ShowsClass target) (present : target.isMissing = false)
    (looked : graph.look? target (.ofText name) = some content) :
    Ensures (findField (graph.classOf target) name .onInstance (some target)) graph
      (fun field later => later = graph ∧ field.name = name) fun _ _ => True := by
  have known : knownValue (some target) = some target := by
    cases target <;> first | rfl | cases present
  unfold findField
  split
  · exact Ensures.throw_bind
  · refine Ensures.get_bind ?_
    split
    · exact Ensures.pure ⟨rfl, rfl⟩
    · refine Ensures.ok_bind
        (holderOf_of_shows (graph.classOf_isMissing target) shown.classShares) ?_
      refine Ensures.get_bind ?_
      split
      · split
        · exact Ensures.throw_bind
        · exact Ensures.pure ⟨rfl, rfl⟩
      · rw [known]
        dsimp only
        unfold fieldOnValue
        refine Ensures.ok_bind (Run.readAsObject_of_look? looked) (Ensures.get_bind ?_)
        repeat' split
        · exact Ensures.pure ⟨rfl, rfl⟩
        · exact Ensures.throw trivial
        · exact Ensures.pure ⟨rfl, rfl⟩
        · exact Ensures.throw_bind

theorem loadElement_spares {array : Value} {index : Nat} (plain : graph.Plain keys floor array)
    (named : Key.ofIndex index ∈ keys) (text : String) :
    Ensures (loadElement text index array) graph
      (fun content later => later = graph ∧ graph.Plain keys floor content) fun _ _ => True := by
  unfold loadElement
  cases missing : array.isMissing with
  | true => exact Ensures.pure ⟨rfl, .of_isMissing rfl⟩
  | false =>
      refine Ensures.get_bind ?_
      split
      · obtain ⟨content, looked, plainContent⟩ := plain.look? missing named
        exact Ensures.of_ok (Run.readWith_of_look? perform looked) ⟨rfl, plainContent⟩
      · exact Ensures.throw_bind

/-- A node that calls no method and reads plain data without failing leaves the graph as it is, and
finds plain data. -/
theorem read_spares {resolver : Resolver} {target : Value} (shown : graph.ShowsClass target)
    (present : target.isMissing = false) (plain : graph.Plain keys floor target)
    (arguments : Option ArgumentMap) {node : Node} (plainNode : node.isPlain = true)
    (within : Within keys (node.steps resolver)) :
    Ensures (node.read resolver arguments (.onValue target)) graph
      (fun content later => later = graph ∧ graph.Plain keys floor content) fun _ _ => True := by
  induction node, plainNode using plainInduction with
  | field serial name =>
      have named := within (.field (resolver.actualName name)) (by simp [steps, final, leading])
      obtain ⟨content, looked, plainContent⟩ := plain.look? present named
      refine Ensures.bind (Ensures.ok_bind (Run.typeOf_of_showsClass shown)
        (findField_spares shown present looked)) ?_
      rintro field later ⟨rfl, sameName⟩
      unfold FieldMember.get
      rw [sameName]
      exact Ensures.of_ok (Run.readAsObject_of_look? looked) ⟨rfl, plainContent⟩
  | element serial text index =>
      exact loadElement_spares plain (within (.element index) (by simp [steps, final, leading])) text
  | nested serial text index inner plainInner inductionHypothesis =>
      obtain ⟨withinInner, withinLast⟩ := Within.append.1
        (show Within keys (inner.steps resolver ++ [.element index]) from within)
      refine Ensures.bind (inductionHypothesis withinInner) ?_
      rintro array later ⟨rfl, plainArray⟩
      exact loadElement_spares plainArray (withinLast (.element index) (by simp)) text

theorem readAll_spares {resolver : Resolver} {target : Value} (classed : graph.Classed)
    (plain : graph.Plain keys floor target) (arguments : Option ArgumentMap) {nodes : List Node}
    (plainNodes : ∀ node ∈ nodes, node.isPlain = true)
    (within : Within keys (stepsOf resolver nodes)) :
    Ensures (readAll resolver arguments target nodes) graph (fun _ later => later = graph)
      fun _ _ => True := by
  induction nodes generalizing target with
  | nil => exact Ensures.pure rfl
  | cons node rest inductionHypothesis =>
      rw [stepsOf_cons] at within
      obtain ⟨withinNode, withinRest⟩ := Within.append.1 within
      unfold readAll
      cases missing : target.isMissing with
      | true => exact Ensures.pure rfl
      | false =>
          refine Ensures.bind (read_spares (classed.showsClass target) missing plain arguments
            (plainNodes node (List.mem_cons_self ..)) withinNode) ?_
          rintro content later ⟨rfl, plainContent⟩
          exact inductionHypothesis plainContent
            (fun other member => plainNodes other (List.mem_cons_of_mem node member)) withinRest

end Spared

/-! ## Writes through joined paths -/

/-- The fault that a session ends with, if it fails. -/
def faultOf {α : Type} (work : Session α) (world : World) : Option Fault :=
  match work world with
  | .ok _ _ => none
  | .error fault _ => some fault

theorem faultOf_of_mirrors {α : Type} {related : World → World → Prop} {work other : Session α}
    {first second : World} (mirrors : Mirrors related (work first) (other second)) :
    faultOf work first = faultOf other second := by
  unfold faultOf
  generalize work first = outcome at mirrors ⊢
  generalize other second = outcomeOther at mirrors ⊢
  cases mirrors <;> rfl

/-- The standard graph with an empty record and a record that holds it. -/
@[irreducible]
def nestGraph : Graph :=
  stateAfter (do
    let inner ← Run.newRecord []
    Run.newRecord [(.name "inner", inner)])
    Graph.standard

/-- The record that holds the other one. -/
def outerRecord : Value :=
  .object (nestGraph.objects.size - 1)

@[inherit_doc outerRecord]
def innerRecord : Value :=
  .object (nestGraph.objects.size - 2)

end Session

end ObjectPath
