import ObjectPath.Proofs.Frame

/-!
# What a call asks its factory for

A factory is asked for the value of a node that is missing, and for the arrays that are missing on
the way to its slot.  The requests of a node are a relation, with one case for each array, and so
are those of a call.

A call depends on its factory only through these requests: it does the same with another factory
that answers them alike.  The first request that fails is the end of the call.
-/

namespace ObjectPath

open Graph

/-! ## Requests -/

/-- What comes of filling a node in, if its value could be placed or not. -/
def Placing.filling (type : Value) : Placing → Filling
  | .nothing => .refused type
  | .lost _ => .refused type
  | .placed made attached => .filled type made attached

namespace Node

section Relations

variable (resolver : Resolver) (arguments : Option ArgumentMap) (supply : Factory) (target : Value)

/-- The value of a node is missing, and this is the type of what it is to be. -/
def Misses (node : Node) (graph : Graph) (type : Value) (later : Graph) : Prop :=
  ∃ content middle, node.read resolver arguments (.onValue target) graph = .ok content middle ∧
    content.isMissing = true ∧
    node.typeAt resolver arguments (.onValue target) middle = .ok type later

/-- What a factory is asked for when a value of a type is placed at a node: the type itself, and
then the arrays that are missing on the way to the slot, each once the ones before it are made. -/
inductive Requests : Node → Value → Graph → Value → Graph → Prop
  | itself (node : Node) (type : Value) (graph : Graph) : Requests node type graph type graph
  | array {serial : Nat} {text : String} {index : Nat} {inner : Node}
      {type made innerType wanted request : Value} {graph produced later asked final : Graph}
      (produces : produce supply type arguments graph = .ok made produced)
      (there : made.isMissing = false)
      (misses : inner.Misses resolver arguments target produced innerType later)
      (wants : Run.requestedArray innerType later = .ok wanted asked)
      (deeper : Requests inner wanted asked request final) :
      Requests (.array serial text index (some inner)) type graph request final

end Relations

variable {resolver : Resolver} {arguments : Option ArgumentMap} {supply : Factory} {target : Value}
  {node inner : Node} {graph later asked failed : Graph} {type wanted request : Value} {fault : Fault}

/-- A value is missing if it is read as a missing one, and then its type is known. -/
theorem Misses.of_run' {content : Value}
    (isRead : (node.read resolver arguments (.onValue target)).run' graph = some content)
    (missing : content.isMissing = true)
    (typed : (node.typeAt resolver arguments (.onValue target)).run'
      (stateAfter (node.read resolver arguments (.onValue target)) graph) = some type) :
    node.Misses resolver arguments target graph type
      (stateAfter (node.typeAt resolver arguments (.onValue target))
        (stateAfter (node.read resolver arguments (.onValue target)) graph)) :=
  ⟨content, _, ok_of_run' isRead, missing, ok_of_run' typed⟩

/-- Filling a node in is placing a value of its type. -/
theorem fill_eq (position : Position) :
    node.fill resolver arguments supply position =
      node.typeAt resolver arguments position >>= fun type =>
        Placing.filling type <$> node.place resolver arguments supply position type := by
  unfold fill place
  refine bind_congr fun type => ?_
  simp only [map_eq_pure_bind, bind_assoc]
  refine bind_congr fun made => ?_
  split
  · rfl
  · rw [bind_assoc]
    refine bind_congr fun arrival => ?_
    cases arrival with
    | refused => rfl
    | reached holder attached => simp only [bind_assoc, pure_bind]; rfl

/-- If no value can be placed at the inner node, the array cannot be approached. -/
theorem approach_of_place_error (serial : Nat) (text : String) (index : Nat)
    (misses : inner.Misses resolver arguments target graph type later)
    (wants : Run.requestedArray type later = .ok wanted asked)
    (fails : inner.place resolver arguments supply (.onValue target) wanted asked =
      .error fault failed) :
    (Node.array serial text index (some inner)).approach resolver arguments (some supply)
      (.onValue target) graph = .error fault failed := by
  obtain ⟨content, middle, isRead, missing, typed⟩ := misses
  rw [approach_nested, bind_of_ok isRead, missing, if_pos rfl, bind_of_ok typed, map_eq_pure_bind]
  exact bind_of_error ((bind_of_ok wants).trans fails)

/-- A request that fails is the end of placing a value. -/
theorem Requests.place_fails
    (requests : Requests resolver arguments supply target node type graph request asked)
    (fails : produce supply request arguments asked = .error fault failed) :
    node.place resolver arguments supply (.onValue target) type graph = .error fault failed := by
  induction requests with
  | itself node type graph => exact bind_of_error fails
  | array produces there misses wants deeper inductionHypothesis =>
      unfold place
      rw [bind_of_ok produces, there, if_neg Bool.false_ne_true]
      exact bind_of_error (approach_of_place_error _ _ _ misses wants (inductionHypothesis fails))

theorem Requests.fill_fails
    (typed : node.typeAt resolver arguments (.onValue target) graph = .ok type later)
    (requests : Requests resolver arguments supply target node type later request asked)
    (fails : produce supply request arguments asked = .error fault failed) :
    node.fill resolver arguments supply (.onValue target) graph = .error fault failed := by
  rw [fill_eq, bind_of_ok typed, map_eq_pure_bind]
  exact bind_of_error (requests.place_fails fails)

section Congruence

variable {other : Factory}

/-- What is approached for an array depends on the factory only as far as what is placed there
does. -/
theorem approach_congr (serial : Nat) (text : String) (index : Nat)
    (same : ∀ type later wanted asked, inner.Misses resolver arguments target graph type later →
      Run.requestedArray type later = .ok wanted asked →
      inner.place resolver arguments supply (.onValue target) wanted asked =
        inner.place resolver arguments other (.onValue target) wanted asked) :
    (Node.array serial text index (some inner)).approach resolver arguments (some supply)
        (.onValue target) graph =
      (Node.array serial text index (some inner)).approach resolver arguments (some other)
        (.onValue target) graph := by
  rw [approach_nested, approach_nested]
  refine bind_congr_ok rfl fun content middle isRead => ?_
  split
  · rename_i missing
    refine bind_congr_ok rfl fun type later typed => ?_
    rw [map_eq_pure_bind, map_eq_pure_bind]
    exact bind_congr_ok (bind_congr_ok rfl fun wanted asked wants =>
      same type later wanted asked ⟨content, middle, isRead, missing, typed⟩ wants) fun _ _ _ => rfl
  · rfl

/-- Placing a value depends on the factory only through what it is asked for. -/
theorem place_congr (plainNode : node.isPlain = true)
    (same : ∀ request asked,
      Requests resolver arguments supply target node type graph request asked →
      produce supply request arguments asked = produce other request arguments asked) :
    node.place resolver arguments supply (.onValue target) type graph =
      node.place resolver arguments other (.onValue target) type graph := by
  induction node, plainNode using plainInduction generalizing type graph with
  | field serial name => exact bind_congr_ok (same _ _ (.itself ..)) fun _ _ _ => rfl
  | element serial text index => exact bind_congr_ok (same _ _ (.itself ..)) fun _ _ _ => rfl
  | nested serial text index inner plainInner inductionHypothesis =>
      refine bind_congr_ok (same _ _ (.itself ..)) fun made produced produces => ?_
      split
      · rfl
      · rename_i there
        refine bind_congr_ok (approach_congr serial text index ?_) fun _ _ _ => rfl
        intro innerType later wanted between misses wants
        refine inductionHypothesis fun request asked requests => same request asked ?_
        exact .array ((same _ _ (.itself ..)).trans produces) (Bool.eq_false_iff.2 there) misses wants
          requests

theorem fill_congr (plainNode : node.isPlain = true)
    (same : ∀ type later request asked,
      node.typeAt resolver arguments (.onValue target) graph = .ok type later →
      Requests resolver arguments supply target node type later request asked →
      produce supply request arguments asked = produce other request arguments asked) :
    node.fill resolver arguments supply (.onValue target) graph =
      node.fill resolver arguments other (.onValue target) graph := by
  rw [fill_eq, fill_eq]
  refine bind_congr_ok rfl fun type later typed => ?_
  rw [map_eq_pure_bind, map_eq_pure_bind]
  exact bind_congr_ok (place_congr plainNode fun request asked => same type later request asked typed)
    fun _ _ _ => rfl

end Congruence

end Node

namespace Session

/-! ## Walks in parts -/

/-- What a walk does after its first nodes. -/
def Track.onward (path : Path) (resolver : Resolver) (options : EvaluateOptions) (index : Nat)
    (nodes : List Node) : Track → Session Track
  | .arrived position attached => track path resolver options index position attached nodes
  | .stopped stop type => pure (.stopped stop type)

theorem track_append (path : Path) (resolver : Resolver) (options : EvaluateOptions) (index : Nat)
    (position : Position) (attached : Bool) (first second : List Node) :
    track path resolver options index position attached (first ++ second) =
      track path resolver options index position attached first >>=
        Track.onward path resolver options (index + first.length) second := by
  induction first generalizing index position attached with
  | nil => rfl
  | cons node rest inductionHypothesis =>
      have later : index + (node :: rest).length = index + 1 + rest.length := by
        rw [List.length_cons]
        omega
      rw [List.cons_append, later]
      unfold track
      simp only [bind_assoc]
      congr 1
      funext value
      split
      · cases options.factory with
        | none => rfl
        | some supply =>
            simp only [bind_assoc]
            congr 1
            funext filling
            cases filling with
            | refused type => rfl
            | filled type made inPlace =>
                simp only [bind_assoc]
                congr 1
                funext _
                exact inductionHypothesis ..
      · exact inductionHypothesis ..

/-! ## Calls that ask a factory -/

/-- A call with a factory on a root has come to a node: those before it lead to a value. -/
structure ComesTo (path : Path) (root : Value) (arguments : Option ArgumentMap) (supply : Factory)
    (world : World) (index : Nat) (target : Value) (middle : World) : Prop where
  dynamic : path.isStatic = false
  present : root.isMissing = false
  walked : walk path (path.resolverIn world) ⟨arguments, some supply⟩ 0 (.onValue root)
    (path.nodes.take index) world = .ok (.arrived (.onValue target)) middle

/-- While it fills a node, a call asks the factory for a value: for a node before the last, if its
value is missing, and for the last one as well if it is written, if an array is missing there. -/
inductive Asks (path : Path) (root : Value) (arguments : Option ArgumentMap) (supply : Factory)
    (world : World) (index : Nat) (middle : World) (request : Value) (asked : Graph) : Bool → Prop
  | before {writes : Bool} {node : Node} {target type : Value} {later : Graph}
      (came : ComesTo path root arguments supply world index target middle)
      (found : path.nodes[index]? = some node) (inside : index + 1 < path.size)
      (misses : node.Misses (path.resolverIn world) arguments target middle.graph type later)
      (requests : node.Requests (path.resolverIn world) arguments supply target type later request
        asked) :
      Asks path root arguments supply world index middle request asked writes
  | last {serial : Nat} {text : String} {number : Nat} {inner : Node} {target type wanted : Value}
      {later wantedIn : Graph}
      (came : ComesTo path root arguments supply world index target middle)
      (isLast : path.lastNode = .array serial text number (some inner))
      (inside : index + 1 = path.size)
      (misses : inner.Misses (path.resolverIn middle) arguments target middle.graph type later)
      (wants : Run.requestedArray type later = .ok wanted wantedIn)
      (requests : inner.Requests (path.resolverIn middle) arguments supply target wanted wantedIn
        request asked) :
      Asks path root arguments supply world index middle request asked true

/-! ## Calls that fail -/

section Fails

variable {path : Path} {world middle : World} {root target type request : Value}
  {arguments : Option ArgumentMap} {supply : Factory} {index : Nat} {node : Node}
  {later asked failed : Graph} {fault : Fault} {writes : Bool}

/-- A walk that has come to a node keeps track of where it is. -/
theorem ComesTo.tracked (came : ComesTo path root arguments supply world index target middle)
    (plainPath : path.IsPlain) :
    ∃ attached, track path (path.resolverIn world) ⟨arguments, some supply⟩ 0 (.onValue root) true
      (path.nodes.take index) world = .ok (.arrived (.onValue target) attached) middle := by
  have walked := came.walked
  rw [walk_eq _ _ _ _ _ true fun node member => plainPath node (List.take_subset _ _ member)] at walked
  obtain ⟨arrival, reached, tracked, same⟩ := ok_of_bind walked
  cases arrival with
  | stopped stop type => cases same
  | arrived position attached =>
      cases same
      exact ⟨attached, tracked⟩

/-- A node before the last one, among those that are walked. -/
theorem exists_dropLast_eq (found : path.nodes[index]? = some node)
    (inside : index + 1 < path.size) :
    ∃ rest, path.nodes.dropLast = path.nodes.take index ++ node :: rest := by
  rw [Path.size] at inside
  obtain ⟨_, isNode⟩ := List.getElem?_eq_some_iff.1 found
  refine ⟨path.nodes.dropLast.drop (index + 1), ?_⟩
  have walked : index < path.nodes.dropLast.length := by
    rw [List.length_dropLast]
    omega
  have first : path.nodes.dropLast.take index = path.nodes.take index := by
    rw [List.dropLast_eq_take, List.take_take, Nat.min_eq_left (by omega)]
  calc path.nodes.dropLast
      = path.nodes.dropLast.take index ++ path.nodes.dropLast.drop index :=
        (List.take_append_drop ..).symm
    _ = path.nodes.take index ++ node :: path.nodes.dropLast.drop (index + 1) := by
        rw [first, List.drop_eq_getElem_cons walked, List.getElem_dropLast, isNode]

/-- A request that fails at a node before the last one is the end of the walk. -/
theorem ComesTo.track_fails
    (came : ComesTo path root arguments supply world index target middle)
    (plainPath : path.IsPlain) (found : path.nodes[index]? = some node)
    (inside : index + 1 < path.size)
    (misses : node.Misses (path.resolverIn world) arguments target middle.graph type later)
    (requests : node.Requests (path.resolverIn world) arguments supply target type later request
      asked)
    (fails : produce supply request arguments asked = .error fault failed) :
    track path (path.resolverIn world) ⟨arguments, some supply⟩ 0 (.onValue root) true
      path.nodes.dropLast world = .error fault { middle with graph := failed } := by
  obtain ⟨attached, tracked⟩ := came.tracked plainPath
  obtain ⟨rest, walked⟩ := exists_dropLast_eq found inside
  obtain ⟨content, first, isRead, missing, typed⟩ := misses
  have notFilled : onGraph (node.fill (path.resolverIn world) arguments supply (.onValue target))
      { middle with graph := first } = .error fault { middle with graph := failed } :=
    onGraph_of_error (requests.fill_fails typed fails)
  rw [walked, track_append, bind_of_ok tracked]
  unfold Track.onward track
  refine (bind_of_ok (onGraph_of_ok isRead)).trans ?_
  rw [missing, if_pos rfl]
  exact bind_of_error notFilled

/-- So a read fails that asks for it. -/
theorem Asks.getValue_fails
    (asks : Asks path root arguments supply world index middle request asked false)
    (plainPath : path.IsPlain)
    (fails : produce supply request arguments asked = .error fault failed) :
    getValue path root ⟨arguments, some supply⟩ world =
      .error fault { middle with graph := failed } := by
  cases asks with
  | before came found inside misses requests =>
      have ended := came.track_fails plainPath found inside misses requests fails
      unfold getValue evaluate walkPath
      rw [came.present, came.dynamic, if_neg Bool.false_ne_true, if_neg Bool.false_ne_true,
        bind_assoc, bind_of_ok (resolverOf_eq path world), walk_eq _ _ _ _ _ true plainPath.dropLast,
        bind_assoc]
      exact bind_of_error ended

/-- So a write fails that asks for it. -/
theorem Asks.setValue_fails
    (asks : Asks path root arguments supply world index middle request asked writes)
    (plainPath : path.IsPlain) {value : Value} {options : EvaluateOptions}
    (given : options.arguments = arguments) (factory : factoryOf path options world = supply)
    (fails : produce supply request arguments asked = .error fault failed) :
    setValue path root value options world = .error fault { middle with graph := failed } := by
  subst given factory
  have approached : approach path (.onValue root) options.arguments (factoryOf path options world)
      world = .error fault { middle with graph := failed } := by
    unfold approach
    rw [bind_of_ok (resolverOf_eq path world)]
    cases asks with
    | before came found inside misses requests =>
        exact bind_of_error (came.track_fails plainPath found inside misses requests fails)
    | last came isLast inside misses wants requests =>
        obtain ⟨attached, tracked⟩ := came.tracked plainPath
        rw [Path.size] at inside
        rw [show path.nodes.take index = path.nodes.dropLast by
          rw [List.dropLast_eq_take, ← inside, Nat.add_sub_cancel]] at tracked
        refine (bind_of_ok tracked).trans ?_
        dsimp only
        rw [bind_of_ok (resolverOf_eq path middle), isLast]
        exact bind_of_error (onGraph_of_error
          (Node.approach_of_place_error _ _ _ misses wants (requests.place_fails fails)))
  have dynamic : path.isStatic = false ∧ root.isMissing = false := by
    cases asks with
    | before came => exact ⟨came.dynamic, came.present⟩
    | last came => exact ⟨came.dynamic, came.present⟩
  unfold setValue
  rw [dynamic.1, dynamic.2, if_neg Bool.false_ne_true, if_neg Bool.false_ne_true,
    assign_eq plainPath]
  exact bind_of_error approached

end Fails

/-! ## Calls depend on what they ask for -/

/-- A walk that starts at a value arrives at one. -/
theorem track_onValue {path : Path} {resolver : Resolver} {options : EvaluateOptions} {index : Nat}
    {target : Value} {position : Position} {first attached : Bool} {nodes : List Node}
    {world later : World}
    (tracked : track path resolver options index (.onValue target) first nodes world =
      .ok (.arrived position attached) later) : ∃ value, position = .onValue value := by
  induction nodes generalizing index target first world with
  | nil =>
      cases tracked
      exact ⟨target, rfl⟩
  | cons node rest inductionHypothesis =>
      unfold track at tracked
      obtain ⟨content, middle, _, reached⟩ := ok_of_bind tracked
      cases missing : content.isMissing with
      | false =>
          rw [missing, if_neg Bool.false_ne_true] at reached
          exact inductionHypothesis reached
      | true =>
          rw [missing, if_pos rfl] at reached
          cases given : options.factory with
          | none =>
              rw [given] at reached
              cases reached
          | some supply =>
              rw [given] at reached
              obtain ⟨filling, filled, _, goesOn⟩ := ok_of_bind reached
              cases filling with
              | refused type => cases goesOn
              | filled type made inPlace =>
                  obtain ⟨_, _, _, onward⟩ := ok_of_bind goesOn
                  exact inductionHypothesis onward

section Congruence

variable {path : Path} {world middle : World} {root target : Value}
  {arguments : Option ArgumentMap} {supply other : Factory}

/-- Where a walk has come to is where the call has. -/
theorem comesTo_of_track (plainPath : path.IsPlain) (dynamic : path.isStatic = false)
    (present : root.isMissing = false) {first rest : List Node} {attached : Bool}
    (parts : path.nodes = first ++ rest)
    (tracked : track path (path.resolverIn world) ⟨arguments, some supply⟩ 0 (.onValue root) true
      first world = .ok (.arrived (.onValue target) attached) middle) :
    ComesTo path root arguments supply world first.length target middle := by
  have walked : path.nodes.take first.length = first := by rw [parts, List.take_left]
  refine ⟨dynamic, present, ?_⟩
  rw [walked, walk_eq _ _ _ _ _ true fun node member => plainPath node (by simp [parts, member])]
  exact bind_of_ok tracked

/-- One node does the same with a factory that answers alike what is asked for there. -/
theorem ComesTo.track_node_congr {index : Nat} {node : Node} {attached : Bool}
    (came : ComesTo path root arguments supply world index target middle)
    (plainPath : path.IsPlain) (found : path.nodes[index]? = some node)
    (inside : index + 1 < path.size) {writes : Bool}
    (same : ∀ request asked, Asks path root arguments supply world index middle request asked writes →
      produce supply request arguments asked = produce other request arguments asked) :
    track path (path.resolverIn world) ⟨arguments, some supply⟩ index (.onValue target) attached
        [node] middle =
      track path (path.resolverIn world) ⟨arguments, some other⟩ index (.onValue target) attached
        [node] middle := by
  have plainNode := plainPath node (List.mem_of_getElem? found)
  unfold track
  refine bind_congr_ok rfl fun content read isRead => ?_
  split
  · rename_i missing
    obtain ⟨graph, isContent, rfl⟩ := ok_of_onGraph isRead
    have filled := Node.fill_congr plainNode fun type later request asked typed requests =>
      same request asked
        (.before came found inside ⟨content, graph, isContent, missing, typed⟩ requests)
    refine bind_congr_ok (onGraph_congr filled) fun filling later _ => ?_
    cases filling with
    | refused type => rfl
    | filled type made inPlace =>
        dsimp only
        unfold track
        rfl
  · rfl

/-- The rest of a walk does the same with a factory that answers alike what is asked for. -/
theorem track_congr_asks (plainPath : path.IsPlain) (dynamic : path.isStatic = false)
    (present : root.isMissing = false) {writes : Bool}
    (same : ∀ index middle request asked,
      Asks path root arguments supply world index middle request asked writes →
      produce supply request arguments asked = produce other request arguments asked)
    {first rest : List Node} {attached : Bool} (parts : path.nodes.dropLast = first ++ rest)
    (tracked : track path (path.resolverIn world) ⟨arguments, some supply⟩ 0 (.onValue root) true
      first world = .ok (.arrived (.onValue target) attached) middle) :
    track path (path.resolverIn world) ⟨arguments, some supply⟩ first.length (.onValue target)
        attached rest middle =
      track path (path.resolverIn world) ⟨arguments, some other⟩ first.length (.onValue target)
        attached rest middle := by
  induction rest generalizing first target attached middle with
  | nil => rfl
  | cons node rest inductionHypothesis =>
      have whole : path.nodes = first ++ (node :: rest ++ [path.lastNode]) := by
        rw [← List.append_assoc, ← parts]
        exact (List.dropLast_append_getLast path.nodes_ne_nil).symm
      have came := comesTo_of_track plainPath dynamic present whole tracked
      have found : path.nodes[first.length]? = some node := by
        rw [whole, List.getElem?_append_right (Nat.le_refl _), Nat.sub_self]
        rfl
      have inside : first.length + 1 < path.size := by
        rw [Path.size, whole]
        simp
      rw [show node :: rest = [node] ++ rest from rfl, track_append, track_append]
      refine bind_congr_ok (came.track_node_congr plainPath found inside (same _ _)) ?_
      intro arrival later stepped
      cases arrival with
      | stopped index type => rfl
      | arrived position inPlace =>
          obtain ⟨value, rfl⟩ := track_onValue stepped
          rw [← came.track_node_congr plainPath found inside (same _ _)] at stepped
          have walked : track path (path.resolverIn world) ⟨arguments, some supply⟩ 0
              (.onValue root) true (first ++ [node]) world =
                .ok (.arrived (.onValue value) inPlace) later := by
            rw [track_append, bind_of_ok tracked, Track.onward, Nat.zero_add]
            exact stepped
          have onward := inductionHypothesis (by rw [parts, List.append_assoc]; rfl) walked
          rwa [List.length_append] at onward

/-- The last node is approached alike with a factory that answers alike what is asked for there. -/
theorem ComesTo.approach_congr {index : Nat}
    (came : ComesTo path root arguments supply world index target middle)
    (plainPath : path.IsPlain) (inside : index + 1 = path.size)
    (same : ∀ request asked, Asks path root arguments supply world index middle request asked true →
      produce supply request arguments asked = produce other request arguments asked) :
    path.lastNode.approach (path.resolverIn middle) arguments (some supply) (.onValue target)
        middle.graph =
      path.lastNode.approach (path.resolverIn middle) arguments (some other) (.onValue target)
        middle.graph := by
  have plainNode := plainPath.lastNode
  cases isLast : path.lastNode with
  | field serial name => rfl
  | method serial text name keys => rfl
  | array serial text number inner =>
      cases inner with
      | none => rfl
      | some inner =>
          rw [isLast] at plainNode
          exact Node.approach_congr serial text number fun type later wanted asked misses wants =>
            Node.place_congr plainNode fun request final requests =>
              same request final (.last came isLast inside misses wants requests)

/-- A read depends on its factory only through what it asks for. -/
theorem getValue_congr_asks (plainPath : path.IsPlain)
    (same : ∀ index middle request asked,
      Asks path root arguments supply world index middle request asked false →
      produce supply request arguments asked = produce other request arguments asked) :
    getValue path root ⟨arguments, some supply⟩ world =
      getValue path root ⟨arguments, some other⟩ world := by
  unfold getValue
  cases present : root.isMissing with
  | true => rw [if_pos rfl, if_pos rfl]
  | false =>
      rw [if_neg Bool.false_ne_true, if_neg Bool.false_ne_true]
      cases dynamic : path.isStatic with
      | true => rw [if_pos rfl, if_pos rfl]
      | false =>
          have tracked := track_congr_asks plainPath dynamic present same
            (List.nil_append _).symm rfl
          rw [if_neg Bool.false_ne_true, if_neg Bool.false_ne_true]
          unfold evaluate walkPath
          rw [bind_assoc, bind_assoc, bind_of_ok (resolverOf_eq path world),
            bind_of_ok (resolverOf_eq path world), walk_eq _ _ _ _ _ true plainPath.dropLast,
            walk_eq _ _ _ _ _ true plainPath.dropLast, bind_assoc, bind_assoc]
          exact bind_congr_ok tracked fun _ _ _ => rfl

/-- So does a write. -/
theorem setValue_congr_asks (plainPath : path.IsPlain) {options others : EvaluateOptions}
    (given : options.arguments = others.arguments)
    (same : ∀ index middle request asked,
      Asks path root options.arguments (factoryOf path options world) world index middle request asked
        true →
      produce (factoryOf path options world) request options.arguments asked =
        produce (factoryOf path others world) request options.arguments asked) (value : Value) :
    setValue path root value options world = setValue path root value others world := by
  unfold setValue
  cases dynamic : path.isStatic with
  | true => rw [if_pos rfl, if_pos rfl]
  | false =>
      rw [if_neg Bool.false_ne_true, if_neg Bool.false_ne_true]
      cases present : root.isMissing with
      | true => rw [if_pos rfl, if_pos rfl]
      | false =>
          rw [if_neg Bool.false_ne_true, if_neg Bool.false_ne_true]
          rw [assign_eq plainPath, assign_eq plainPath, ← given]
          refine bind_congr_ok ?_ fun _ _ _ => rfl
          unfold approach
          rw [bind_of_ok (resolverOf_eq path world), bind_of_ok (resolverOf_eq path world)]
          have tracked := track_congr_asks plainPath dynamic present same (List.nil_append _).symm rfl
          refine bind_congr_ok tracked fun arrival later walked => ?_
          cases arrival with
          | stopped index type => rfl
          | arrived position attached =>
              dsimp only
              rw [bind_of_ok (resolverOf_eq path later), bind_of_ok (resolverOf_eq path later)]
              obtain ⟨target, rfl⟩ := track_onValue walked
              refine bind_congr_ok ?_ fun _ _ _ => rfl
              have came := comesTo_of_track plainPath dynamic present
                (List.dropLast_append_getLast path.nodes_ne_nil).symm (tracked.trans walked)
              have isLast : path.nodes.dropLast.length + 1 = path.size := by
                rw [List.length_dropLast]
                exact Nat.sub_add_cancel (List.length_pos_iff.2 path.nodes_ne_nil)
              exact onGraph_congr (came.approach_congr plainPath isLast (same _ _))

end Congruence

end Session

end ObjectPath
