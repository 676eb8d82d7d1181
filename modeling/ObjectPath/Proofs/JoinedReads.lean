import ObjectPath.Proofs.Frame
import ObjectPath.Proofs.Joining

/-!
# Reading a joined path

A read without a factory reads the nodes of its path in a row and ends where nothing is found.
So a joined path is read by reading the first path and then the second one from what was found,
whatever the nodes are and whatever they run: the values, the faults and the worlds that are left
are the same, and so are the calls of methods, in the same order.
-/

namespace ObjectPath

/-! ## Nodes without their numbers -/

namespace Node

section Bare

variable (resolver : Resolver) (arguments : Option ArgumentMap) (position : Position)

@[simp]
theorem read_bare (node : Node) :
    node.bare.read resolver arguments position = node.read resolver arguments position := by
  fun_induction Node.bare node with
  | case1 => rfl
  | case2 => rfl
  | case3 => rfl
  | case4 serial text index inner inductionHypothesis =>
      rw [Node.read, inductionHypothesis, Node.read]

@[simp]
theorem typeAt_bare (node : Node) :
    node.bare.typeAt resolver arguments position = node.typeAt resolver arguments position := by
  fun_induction Node.bare node with
  | case1 => rfl
  | case2 => rfl
  | case3 => rfl
  | case4 serial text index inner inductionHypothesis =>
      rw [Node.typeAt, inductionHypothesis, Node.typeAt]

@[simp]
theorem write_bare (factory : Option Factory) (value : Value) (node : Node) :
    node.bare.write resolver arguments factory position value =
      node.write resolver arguments factory position value := by
  fun_induction Node.bare node generalizing value with
  | case1 => rfl
  | case2 => rfl
  | case3 => rfl
  | case4 serial text index inner inductionHypothesis =>
      simp only [Node.write, read_bare, typeAt_bare, inductionHypothesis]

end Bare

/-! ## Nodes in a row -/

section Row

variable (resolver : Resolver) (arguments : Option ArgumentMap)

/-- Reads nodes in a row from a value; nothing is read of a missing value. -/
def readAll : Value → List Node → Run Value
  | value, [] => pure value.orNull
  | value, node :: rest =>
      if value.isMissing then
        pure .null
      else do
        let next ← node.read resolver arguments (.onValue value)
        readAll next rest

/-- Reads nodes in a row from a position. -/
def readFrom (position : Position) : List Node → Run Value
  | [] => pure .null
  | node :: rest => do
      let next ← node.read resolver arguments position
      readAll resolver arguments next rest

theorem readAll_of_isMissing {value : Value} (missing : value.isMissing = true)
    (nodes : List Node) : readAll resolver arguments value nodes = pure .null := by
  cases nodes with
  | nil => cases value <;> first | rfl | cases missing
  | cons node rest => rw [readAll, if_pos missing]

theorem readAll_of_present {value : Value} (present : value.isMissing = false) {nodes : List Node}
    (some : nodes ≠ []) :
    readAll resolver arguments value nodes =
      readFrom resolver arguments (.onValue value) nodes := by
  obtain ⟨node, rest, rfl⟩ := List.exists_cons_of_ne_nil some
  rw [readAll, if_neg (by simp [present]), readFrom]

theorem readAll_orNull (value : Value) (nodes : List Node) :
    readAll resolver arguments value.orNull nodes = readAll resolver arguments value nodes := by
  cases missing : value.isMissing with
  | true =>
      have missingNull : value.orNull.isMissing = true := by
        rw [Value.orNull, if_pos missing]
        rfl
      rw [readAll_of_isMissing _ _ missing, readAll_of_isMissing _ _ missingNull]
  | false => rw [Value.orNull, if_neg (by simp [missing])]

/-- More nodes are read from what the first ones give. -/
theorem readAll_append (value : Value) (first second : List Node) :
    readAll resolver arguments value (first ++ second) =
      readAll resolver arguments value first >>= fun middle =>
        readAll resolver arguments middle second := by
  induction first generalizing value with
  | nil => rw [List.nil_append, readAll, pure_bind, readAll_orNull]
  | cons node rest inductionHypothesis =>
      cases missing : value.isMissing with
      | true =>
          rw [readAll_of_isMissing _ _ missing, readAll_of_isMissing _ _ missing, pure_bind,
            readAll_of_isMissing _ _ rfl]
      | false =>
          simp only [List.cons_append, readAll, missing, Bool.false_eq_true, if_false, bind_assoc,
            inductionHypothesis]

theorem readFrom_append (position : Position) {first : List Node} (some : first ≠ [])
    (second : List Node) :
    readFrom resolver arguments position (first ++ second) =
      readFrom resolver arguments position first >>= fun middle =>
        readAll resolver arguments middle second := by
  obtain ⟨node, rest, rfl⟩ := List.exists_cons_of_ne_nil some
  simp only [List.cons_append, readFrom, bind_assoc, readAll_append]

theorem readAll_map_bare (value : Value) (nodes : List Node) :
    readAll resolver arguments value (nodes.map Node.bare) =
      readAll resolver arguments value nodes := by
  induction nodes generalizing value with
  | nil => rfl
  | cons node rest inductionHypothesis =>
      simp only [List.map_cons, readAll, read_bare, inductionHypothesis]

theorem readFrom_map_bare (position : Position) (nodes : List Node) :
    readFrom resolver arguments position (nodes.map Node.bare) =
      readFrom resolver arguments position nodes := by
  cases nodes with
  | nil => rfl
  | cons node rest => simp only [List.map_cons, readFrom, read_bare, readAll_map_bare]

end Row

/-! ## Calls -/

/-- A call of a method: the method, what it is called on and with which values, and the graph at
that moment. -/
structure Call where
  member : MethodMember
  target : Value
  values : List Value
  moment : Graph

/-- The method and the values of the call that a method node makes. -/
def callee (resolver : Resolver) (arguments : Option ArgumentMap) (position : Position)
    (text name : String) (keys : List String) : Run (MethodMember × List Value) := do
  let values ← Run.lift (argumentValues text keys arguments)
  let member ← methodAt resolver name values position
  pure (member, values)

/-- The call of a method that reading a node makes, if it comes to that. -/
def call? (resolver : Resolver) (arguments : Option ArgumentMap) (position : Position)
    (graph : Graph) : Node → Option Call
  | .field _ _ => none
  | .method _ text name keys =>
      match callee resolver arguments position text name keys graph with
      | .ok (member, values) moment => some ⟨member, position.target, values, moment⟩
      | .error _ _ => none
  | .array _ _ _ none => none
  | .array _ _ _ (some inner) => inner.call? resolver arguments position graph

section Calls

variable (resolver : Resolver) (arguments : Option ArgumentMap)

/-- What reading a method node gives is what its call gives. -/
theorem read_of_call {position : Position} {serial : Nat} {text name : String}
    {keys : List String} {graph : Graph} {call : Call}
    (calls : (Node.method serial text name keys).call? resolver arguments position graph =
      some call) :
    (Node.method serial text name keys).read resolver arguments position graph =
      call.member.invoke call.target call.values call.moment := by
  have parts : (Node.method serial text name keys).read resolver arguments position =
      callee resolver arguments position text name keys >>= fun found =>
        found.1.invoke position.target found.2 := by
    simp only [Node.read, callee, bind_assoc, pure_bind]
  rw [call?] at calls
  split at calls
  · rename_i member values moment found
    cases calls
    rw [parts, bind_of_ok found]
  · cases calls

/-- The calls that reading nodes in a row makes, in order. -/
def calls : Position → List Node → Graph → List Call
  | _, [], _ => []
  | position, node :: rest, graph =>
      (node.call? resolver arguments position graph).toList ++
        match node.read resolver arguments position graph with
        | .ok value later => if value.isMissing then [] else calls (.onValue value) rest later
        | .error _ _ => []

/-- The calls that reading nodes from a value makes. -/
def callsOn (value : Value) (nodes : List Node) (graph : Graph) : List Call :=
  if value.isMissing then [] else calls resolver arguments (.onValue value) nodes graph

/-- The calls that come after a run. -/
def callsAfter (run : Run Value) (nodes : List Node) (graph : Graph) : List Call :=
  match run graph with
  | .ok value later => callsOn resolver arguments value nodes later
  | .error _ _ => []

theorem callsAfter_bind {α : Type} {run : Run α} {next : α → Run Value} {value : α}
    {graph later : Graph} (ended : run graph = .ok value later) (nodes : List Node) :
    callsAfter resolver arguments (run >>= next) nodes graph =
      callsAfter resolver arguments (next value) nodes later := by
  rw [callsAfter, bind_of_ok ended, callsAfter]

theorem callsOn_orNull (value : Value) (nodes : List Node) (graph : Graph) :
    callsOn resolver arguments value.orNull nodes graph =
      callsOn resolver arguments value nodes graph := by
  cases missing : value.isMissing with
  | true => simp only [callsOn, Value.orNull, missing, if_true, show Value.null.isMissing = true from rfl]
  | false => rw [Value.orNull, if_neg (by simp [missing])]

theorem calls_of_ok {position : Position} {node : Node} {value : Value} {graph later : Graph}
    (ended : node.read resolver arguments position graph = .ok value later) (rest : List Node) :
    calls resolver arguments position (node :: rest) graph =
      (node.call? resolver arguments position graph).toList ++
        callsOn resolver arguments value rest later := by
  rw [calls, ended]
  rfl

theorem calls_of_error {position : Position} {node : Node} {fault : Fault} {graph later : Graph}
    (ended : node.read resolver arguments position graph = .error fault later)
    (rest : List Node) :
    calls resolver arguments position (node :: rest) graph =
      (node.call? resolver arguments position graph).toList := by
  rw [calls, ended]
  exact List.append_nil _

/-- The calls of more nodes come after those of the first ones, on what these give. -/
theorem calls_append (position : Position) {first : List Node} (some : first ≠ [])
    (second : List Node) (graph : Graph) :
    calls resolver arguments position (first ++ second) graph =
      calls resolver arguments position first graph ++
        callsAfter resolver arguments (readFrom resolver arguments position first) second
          graph := by
  induction first generalizing position graph with
  | nil => exact absurd rfl some
  | cons node rest inductionHypothesis =>
      rw [List.cons_append, readFrom]
      cases ended : node.read resolver arguments position graph with
      | error fault later =>
          rw [calls_of_error _ _ ended, calls_of_error _ _ ended, callsAfter, bind_of_error ended]
          exact (List.append_nil _).symm
      | ok value later =>
          rw [calls_of_ok _ _ ended, calls_of_ok _ _ ended, callsAfter_bind _ _ ended,
            List.append_assoc]
          congr 1
          cases missing : value.isMissing with
          | true =>
              rw [readAll_of_isMissing _ _ missing, callsOn, callsOn, missing]
              rfl
          | false =>
              cases rest with
              | nil =>
                  rw [List.nil_append, ← callsOn_orNull]
                  simp only [callsOn, calls, ite_self, List.nil_append]
                  rfl
              | cons next others =>
                  have onward := inductionHypothesis (.onValue value) (List.cons_ne_nil _ _) later
                  rw [readAll_of_present _ _ missing (List.cons_ne_nil _ _), callsOn, callsOn,
                    missing]
                  exact onward

theorem call?_bare (position : Position) (graph : Graph) (node : Node) :
    node.bare.call? resolver arguments position graph =
      node.call? resolver arguments position graph := by
  fun_induction Node.bare node with
  | case1 => rfl
  | case2 => rfl
  | case3 => rfl
  | case4 serial text index inner inductionHypothesis =>
      rw [call?, inductionHypothesis, call?]

theorem calls_map_bare (position : Position) (nodes : List Node) (graph : Graph) :
    calls resolver arguments position (nodes.map Node.bare) graph =
      calls resolver arguments position nodes graph := by
  induction nodes generalizing position graph with
  | nil => rfl
  | cons node rest inductionHypothesis =>
      simp only [List.map_cons, calls, call?_bare, read_bare, inductionHypothesis]

end Calls

end Node

namespace Session

open Node

/-! ## Reading a path -/

section Reading

variable (arguments : Option ArgumentMap)

/-- A walk without a factory, and a read of the last node, are reads of nodes in a row. -/
theorem walk_readFrom (path : Path) (resolver : Resolver) (index : Nat) (position : Position)
    (nodes : List Node) (last : Node) {world : World}
    (same : (world.compiler path.compiler).resolver = resolver) :
    (walk path resolver ⟨arguments, none⟩ index position nodes >>= fun arrival =>
        match arrival with
        | .stopped _ _ => pure .null
        | .arrived position => do
            let value ← onGraph (last.read (← resolverOf path) arguments position)
            pure value.orNull) world =
      onGraph (readFrom resolver arguments position (nodes ++ [last])) world := by
  induction nodes generalizing index position world with
  | nil =>
      rw [walk, pure_bind]
      dsimp only
      rw [bind_of_ok (resolverOf_eq path world), same, List.nil_append, readFrom, onGraph_bind]
      rfl
  | cons node rest inductionHypothesis =>
      rw [walk, List.cons_append, readFrom, bind_assoc, onGraph_bind]
      cases ended : node.read resolver arguments position world.graph with
      | error fault later =>
          have failed : onGraph (node.read resolver arguments position) world =
              .error fault { world with graph := later } := by
            simp only [onGraph, ended]
          rw [bind_of_error failed, bind_of_error failed]
      | ok value later =>
          rw [bind_of_ok (onGraph_of_ok ended), bind_of_ok (onGraph_of_ok ended)]
          cases missing : value.isMissing with
          | true =>
              rw [if_pos rfl, pure_bind, readAll_of_isMissing _ _ missing]
              rfl
          | false =>
              rw [readAll_of_present _ _ missing (by simp)]
              exact inductionHypothesis _ _ same

theorem evaluate_eq (path : Path) (position : Position) (world : World) :
    evaluate path position ⟨arguments, none⟩ world =
      onGraph (readFrom (path.resolverIn world) arguments position path.nodes) world := by
  have nodes : path.nodes.dropLast ++ [path.lastNode] = path.nodes :=
    List.dropLast_append_getLast path.nodes_ne_nil
  rw [evaluate, walkPath, bind_assoc, bind_of_ok (resolverOf_eq path world)]
  conv_rhs => rw [← nodes]
  exact walk_readFrom arguments path _ 0 position _ _ rfl

theorem getValue_eq {path : Path} (noType : path.rootType = none) (root : Value) (world : World) :
    getValue path root ⟨arguments, none⟩ world =
      onGraph (readAll (path.resolverIn world) arguments root path.nodes) world := by
  rw [getValue, Path.isStatic, noType]
  cases missing : root.isMissing with
  | true =>
      rw [readAll_of_isMissing _ _ missing]
      rfl
  | false =>
      rw [readAll_of_present _ _ missing path.nodes_ne_nil, ← evaluate_eq]
      rfl

/-- Reads a path from a root, or from its own type if it starts from one. -/
def readPath (path : Path) (root : Value) : Session Value :=
  if path.isStatic then
    getStaticValue path none ⟨arguments, none⟩
  else
    getValue path root ⟨arguments, none⟩

/-- The position at which the first node of a path is read; there is none on a missing root. -/
def positionOn? (path : Path) (root : Value) : Option Position :=
  match path.rootType with
  | some owner => some (.onClass owner)
  | none => if root.isMissing then none else some (.onValue root)

theorem readPath_eq (path : Path) (root : Value) (world : World) :
    readPath arguments path root world =
      match positionOn? path root with
      | none => .ok .null world
      | some position =>
          onGraph (readFrom (path.resolverIn world) arguments position path.nodes) world := by
  unfold readPath positionOn?
  cases rootType : path.rootType with
  | some owner =>
      have starts : staticRoot path none = pure (.onClass owner) := by
        unfold staticRoot
        rw [rootType]
      rw [Path.isStatic, rootType, Option.isSome_some, if_pos rfl, getStaticValue, starts,
        pure_bind, evaluate_eq]
  | none =>
      rw [Path.isStatic, rootType, Option.isSome_none, if_neg Bool.false_ne_true,
        getValue_eq arguments rootType]
      cases missing : root.isMissing with
      | true =>
          rw [readAll_of_isMissing _ _ missing]
          rfl
      | false =>
          rw [readAll_of_present _ _ missing path.nodes_ne_nil]
          rfl

/-- The calls of methods that reading a path makes, in order. -/
def callsOf (path : Path) (root : Value) (world : World) : List Call :=
  match positionOn? path root with
  | none => []
  | some position => calls (path.resolverIn world) arguments position path.nodes world.graph

end Reading

/-! ## Joined paths -/

section Joined

variable {path tail joined : Path} (joins : Joins path tail joined)
  (arguments : Option ArgumentMap) (root : Value) (now : World)

include joins

theorem Joins.positionOn? : positionOn? joined root = positionOn? path root := by
  unfold Session.positionOn?
  rw [joins.rootType]

theorem Joins.resolverIn : joined.resolverIn now = path.resolverIn now := by
  rw [Path.resolverIn, Path.resolverIn, joins.compiler]

theorem Joins.resolverIn_tail : tail.resolverIn now = path.resolverIn now := by
  rw [Path.resolverIn, Path.resolverIn, joins.compilerTail]

theorem Joins.readFrom (resolver : Resolver) (position : Position) :
    Node.readFrom resolver arguments position joined.nodes =
      Node.readFrom resolver arguments position path.nodes >>= fun middle =>
        readAll resolver arguments middle tail.nodes := by
  rw [← readFrom_map_bare, joins.nodes, readFrom_map_bare, readFrom_append _ _ _ path.nodes_ne_nil]

theorem Joins.calls (resolver : Resolver) (position : Position) (graph : Graph) :
    Node.calls resolver arguments position joined.nodes graph =
      Node.calls resolver arguments position path.nodes graph ++
        callsAfter resolver arguments (Node.readFrom resolver arguments position path.nodes)
          tail.nodes graph := by
  rw [← calls_map_bare, joins.nodes, calls_map_bare, calls_append _ _ _ path.nodes_ne_nil]

variable (noType : tail.rootType = none)

include noType

/-- A joined path is read by reading the second path from what the first one gives. -/
theorem Joins.readPath :
    readPath arguments joined root now =
      (readPath arguments path root >>= fun middle =>
        getValue tail middle ⟨arguments, none⟩) now := by
  have first := readPath_eq arguments path root now
  rw [readPath_eq, joins.positionOn?]
  cases found : Session.positionOn? path root with
  | none =>
      rw [found] at first
      rw [bind_of_ok first, getValue_eq arguments noType, readAll_of_isMissing _ _ rfl]
      rfl
  | some position =>
      rw [found] at first
      dsimp only at first ⊢
      rw [joins.readFrom, joins.resolverIn, onGraph_bind]
      cases ended : onGraph (Node.readFrom (path.resolverIn now) arguments position path.nodes)
          now with
      | error fault later => rw [bind_of_error ended, bind_of_error (first.trans ended)]
      | ok middle later =>
          have same : path.resolverIn later = path.resolverIn now := by
            unfold onGraph at ended
            split at ended <;> cases ended
            rfl
          rw [bind_of_ok ended, bind_of_ok (first.trans ended), getValue_eq arguments noType,
            joins.resolverIn_tail, same]

/-- The calls of a joined path are those of the first path and then those of the second one, on
what the first one gives. -/
theorem Joins.callsOf :
    callsOf arguments joined root now =
      callsOf arguments path root now ++
        match Session.readPath arguments path root now with
        | .ok middle later => callsOf arguments tail middle later
        | .error _ _ => [] := by
  have first := readPath_eq arguments path root now
  unfold Session.callsOf
  rw [joins.positionOn?]
  cases found : Session.positionOn? path root with
  | none =>
      rw [found] at first
      rw [first]
      dsimp only
      rw [Session.positionOn?, noType]
      rfl
  | some position =>
      rw [found] at first
      dsimp only at first ⊢
      rw [first, joins.resolverIn, joins.calls, callsAfter, onGraph]
      congr 1
      cases ended : Node.readFrom (path.resolverIn now) arguments position path.nodes
          now.graph with
      | error fault later => rfl
      | ok middle later =>
          dsimp only
          rw [callsOn, Session.positionOn?, noType]
          cases middle.isMissing with
          | true => rfl
          | false =>
              dsimp only
              rw [joins.resolverIn_tail]
              rfl

end Joined

/-- If the first nodes of a path give nothing, so does the path, and no other node is read. -/
theorem readPath_of_missing {path : Path} {arguments : Option ArgumentMap} {root : Value}
    {now later : World} {position : Position} (found : positionOn? path root = some position)
    {count : Nat} (some : 0 < count)
    (nothing : onGraph (readFrom (path.resolverIn now) arguments position (path.nodes.take count))
      now = .ok .null later) :
    readPath arguments path root now = .ok .null later := by
  have taken : path.nodes.take count ≠ [] := by
    simp [List.take_eq_nil_iff, path.nodes_ne_nil, Nat.pos_iff_ne_zero.1 some]
  rw [readPath_eq, found]
  dsimp only
  rw [← List.take_append_drop count path.nodes, readFrom_append _ _ _ taken, onGraph_bind,
    bind_of_ok nothing, readAll_of_isMissing _ _ rfl]
  rfl

open World

/-- Reading a joined path, from a root or from its own type, is reading the first path and then
the second one from what the first one gives: it gives the same value or fails with the same
fault, leaves the same world, and makes the same calls of methods in the same order.  It gives
nothing as soon as its first nodes do. -/
theorem joined_path_reads_in_turn {place mark : Nat} {start world later : World}
    (fresh : Fresh start place) (reached : Reached place start world mark)
    {path tail joined : Path} (made : Made place start world path)
    (madeTail : Made place start world tail) (noType : tail.rootType = none)
    (ended : concat path tail world = .ok joined later) (arguments : Option ArgumentMap)
    (root : Value) (now : World) :
    readPath arguments joined root now =
        (readPath arguments path root >>= fun middle =>
          getValue tail middle ⟨arguments, none⟩) now ∧
      callsOf arguments joined root now =
        callsOf arguments path root now ++
          (match readPath arguments path root now with
          | .ok middle next => callsOf arguments tail middle next
          | .error _ _ => []) ∧
      (positionOn? joined root = none → readPath arguments joined root now = .ok .null now) ∧
      ∀ position count next, positionOn? joined root = some position → 0 < count →
        onGraph (readFrom (joined.resolverIn now) arguments position (joined.nodes.take count))
          now = .ok .null next →
        readPath arguments joined root now = .ok .null next := by
  have joins := joins_of_concat (reached.sound fresh.sound) (made.cached fresh)
    (madeTail.cached fresh) noType ended
  refine ⟨joins.readPath arguments root now noType, joins.callsOf arguments root now noType,
    fun nowhere => ?_, fun position count next found some nothing =>
      readPath_of_missing found some nothing⟩
  rw [readPath_eq, nowhere]

/-- The cells of a grid are read, and then the first field of what was found. -/
theorem cells_read_in_turn :
    ∃ path tail joined : Path, ∃ world later : World,
      path.nodes.map Node.form = [⟨.field "cells", []⟩] ∧
      tail.nodes.map Node.form = [⟨.field "first", []⟩] ∧
      concat path tail world = .ok joined later ∧
      readPath none joined emptyGrid gridWorld =
        (readPath none path emptyGrid >>= fun middle =>
          getValue tail middle ⟨none, none⟩) gridWorld ∧
      callsOf none joined emptyGrid gridWorld =
        callsOf none path emptyGrid gridWorld ++
          (match readPath none path emptyGrid gridWorld with
          | .ok middle next => callsOf none tail middle next
          | .error _ _ => []) := by
  have fresh : Fresh gridWorld World.standardPlace := fresh_initial gridGraph
  obtain ⟨path, tail, joined, world, later, mark, reached, made, madeTail, _, noType, forms,
    formsTail, ended⟩ := exists_joined fresh
      (show _ = Value.number (.ofNat 64) from rfl) rfl
      (spellsPlainly_word (show Text.isIdentifier "cells" = true by decide))
      (spellsPlainly_word (show Text.isIdentifier "first" = true by decide)) (by decide)
  obtain ⟨reads, calls, _⟩ :=
    joined_path_reads_in_turn fresh reached made madeTail noType ended none emptyGrid gridWorld
  exact ⟨path, tail, joined, world, later, forms, formsTail, ended, reads, calls⟩

end Session

end ObjectPath
