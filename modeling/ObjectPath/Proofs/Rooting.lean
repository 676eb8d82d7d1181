import ObjectPath.Predicate
import ObjectPath.Proofs.Arguments

/-!
# Roots as arguments

A predicate that asks for no argument but the root of its side needs no argument map.  Each side
that asks for its root is given it, and a side that does not ask is evaluated in the same way with
every map.  So the sides are evaluated as if each were given the map that binds its own root.
-/

namespace ObjectPath

/-! ## Nodes that are given the root -/

namespace Node

variable {resolver : Resolver} {position : Position} {root : Value}

/-- Reads a node at a position with the arguments of its method at hand, so that none can be
missing. -/
def readGiven (resolver : Resolver) (position : Position) (values : List Value) : Node → Run Value
  | .method _ _ name _ => do
      let member ← methodAt resolver name values position
      member.invoke position.target values
  | .array _ text index (some inner) => do
      let array ← readGiven resolver position values inner
      loadElement text index array
  | node => node.read resolver none position

theorem valuesOf_root (text : String) {keys : List String} (only : ∀ key ∈ keys, key = rootKey) :
    valuesOf text [(rootKey, root)] keys = .ok (keys.map fun _ => root) := by
  induction keys with
  | nil => rfl
  | cons key rest inductionHypothesis =>
      rw [valuesOf, only key (List.mem_cons_self ..), Entries.get?, if_pos rfl]
      dsimp only
      rw [inductionHypothesis fun other member => only other (List.mem_cons_of_mem key member)]
      rfl

/-- The map that binds the root has all the arguments of a method that asks for nothing else, and
no map is needed for a method that asks for nothing at all. -/
theorem argumentValues_root (text : String) {keys : List String}
    {arguments : Option ArgumentMap} (only : ∀ key ∈ keys, key = rootKey)
    (bound : arguments = some [(rootKey, root)] ∨ keys = []) :
    argumentValues text keys arguments = .ok (keys.map fun _ => root) := by
  cases keys with
  | nil => rfl
  | cons key rest =>
      rcases bound with rfl | impossible
      · exact valuesOf_root text only
      · cases impossible

/-- A node that asks for no argument but the root is read with the root in the place of each. -/
theorem read_root {arguments : Option ArgumentMap} (node : Node)
    (only : ∀ key ∈ node.argumentKeys, key = rootKey)
    (bound : arguments = some [(rootKey, root)] ∨ node.argumentKeys = []) :
    node.read resolver arguments position =
      node.readGiven resolver position (node.argumentKeys.map fun _ => root) := by
  induction node using Node.argumentKeys.induct with
  | case1 serial name => rfl
  | case2 serial text name keys =>
      have values : argumentValues text keys arguments = .ok (keys.map fun _ => root) :=
        argumentValues_root text only bound
      rw [read, values]
      rfl
  | case3 serial text index => rfl
  | case4 serial text index inner inductionHypothesis =>
      rw [read, inductionHypothesis only bound]
      rfl

end Node

/-! ## Paths that are given the root -/

section Paths

variable {path : Path} {root : Value}

/-- A path that asks for no argument but the root is given the map that binds it, or asks for
nothing. -/
theorem rootArguments_cases (only : ∀ key ∈ path.argumentKeys, key = rootKey) :
    rootArguments path root none = some [(rootKey, root)] ∨ path.argumentKeys = [] := by
  unfold rootArguments
  cases keys : path.argumentKeys with
  | nil => exact Or.inr rfl
  | cons key rest =>
      rw [keys] at only
      rw [only key (List.mem_cons_self ..), if_pos (List.contains_iff_mem.2 (List.mem_cons_self ..))]
      exact Or.inl rfl

theorem Path.mem_argumentKeys {node : Node} (member : node ∈ path.nodes) :
    node.argumentKeys ⊆ path.argumentKeys := fun _ isKey =>
  List.mem_eraseDups.2 (List.mem_flatMap.2 ⟨node, member, isKey⟩)

/-- No node of the path looks for an argument that is missing. -/
theorem Path.read_root (only : ∀ key ∈ path.argumentKeys, key = rootKey) {node : Node}
    (member : node ∈ path.nodes) (resolver : Resolver) (position : Position) :
    node.read resolver (rootArguments path root none) position =
      node.readGiven resolver position (node.argumentKeys.map fun _ => root) := by
  have subset := path.mem_argumentKeys member
  refine node.read_root (fun key isKey => only key (subset isKey)) ?_
  refine (rootArguments_cases only).imp_right fun noKeys => ?_
  rw [noKeys] at subset
  exact List.subset_nil.1 subset

end Paths

namespace Session

/-! ## Sides -/

theorem evaluateSide_congr {path : Path} {first second : Option ArgumentMap}
    (agree : AgreeOn False path.argumentKeys first second) (root : Value) :
    evaluateSide path root ⟨first, none⟩ = evaluateSide path root ⟨second, none⟩ := by
  have alike : ∀ world, EndsAlike (fun _ => Eq) path world first second := fun world =>
    endsAlike_of_agreeOn (fun _ _ _ alike => alike.eq not_false) path world agree
  unfold evaluateSide
  split
  · exact funext fun world => (alike world).readsStatic none
  · refine bind_congr fun isClass => funext fun world => ?_
    split
    · exact (alike world).readsStatic (some root)
    · exact (alike world).reads root

/-- A side that asks for no argument but its root is evaluated as if it were given the map that
binds it. -/
theorem evaluateRooted_eq {path : Path} (only : ∀ key ∈ path.argumentKeys, key = rootKey)
    (root : Value) :
    evaluateRooted path root ⟨none, none⟩ =
      evaluateSide path root ⟨some [(rootKey, root)], none⟩ := by
  unfold evaluateRooted
  have rooted : rootArguments path root none = some [(rootKey, root)] ∨ path.argumentKeys = [] :=
    rootArguments_cases only
  rcases rooted with bound | noKeys
  · rw [bound]
  · exact evaluateSide_congr (by rw [noKeys]; exact ⟨fun _ => nofun, fun some => some rfl⟩) root

/-! ## Predicates -/

/-- The predicates that there are: those that hold of everything and of nothing, and what is built
from texts, or given in place of it. -/
inductive Built : Predicate → Prop
  | acceptAll : Built .acceptAll
  | denyAll : Built .denyAll
  | made {compiler : Nat} {whenText thanText : String} {asked : Test}
      {otherwise : Option Predicate} {world later : World} {made : Predicate} :
      (∀ other ∈ otherwise, Built other) →
      predicate compiler whenText asked thanText otherwise world = .ok (some made) later →
      Built made

/-- A predicate with paths has a test, and as many paths as the test needs values. -/
theorem Built.sides {made : Predicate} (built : Built made) {path : Path}
    (hasWhen : made.whenPath = some path) :
    (made.test.kind = .unary ∧ made.thanPath = none) ∨
      (made.test.kind = .binary ∧ ∃ other, made.thanPath = some other) := by
  induction built with
  | acceptAll => cases hasWhen
  | denyAll => cases hasWhen
  | @made compiler whenText thanText asked otherwise world later made _ ended inductionHypothesis =>
      unfold predicate at ended
      split at ended
      · split at ended
        · cases ended
        · split at ended
          · cases ended
          · cases ended
            exact inductionHypothesis made rfl hasWhen
      · generalize (Text.trim thanText != "") = hasThan at ended
        cases kind : asked.kind with
        | undefined =>
            rw [kind] at ended
            cases ended
        | unary =>
            rw [kind] at ended
            cases hasThan with
            | true => cases ended
            | false =>
                obtain ⟨_, _, _, onward⟩ := ok_of_bind ended
                cases onward
                exact Or.inl ⟨kind, rfl⟩
        | binary =>
            rw [kind] at ended
            cases hasThan with
            | false => cases ended
            | true =>
                obtain ⟨_, _, _, onward⟩ := ok_of_bind ended
                obtain ⟨other, _, _, last⟩ := ok_of_bind onward
                cases last
                exact Or.inr ⟨kind, other, rfl⟩

/-- The root of the second side is the first one, unless another one is given. -/
def secondRoot (first : Value) : Option Value → Value
  | none => first
  | some .undefined => first
  | some root => root

/-- Evaluates the sides of a predicate, each with its root as the only argument, and applies the
test to what they give. -/
def testRooted (asked : Predicate) (path : Path) (first second : Value) : Session Bool := do
  let value ← evaluateSide path first ⟨some [(rootKey, first)], none⟩
  match asked.thanPath with
  | none => onGraph (asked.test.holds value .undefined)
  | some other =>
      let answer ← evaluateSide other second ⟨some [(rootKey, second)], none⟩
      onGraph (asked.test.holds value answer)

/-- The sides of a predicate, each with the root that it is evaluated on. -/
def sidesOn (asked : Predicate) (first second : Value) : List (Path × Value) :=
  (asked.whenPath.map (·, first)).toList ++ (asked.thanPath.map (·, second)).toList

theorem key_of_hasOnlyRootKey {asked : Predicate} (onlyRoot : asked.hasOnlyRootKey = true)
    {first second : Value} {side : Path × Value} (isSide : side ∈ sidesOn asked first second) :
    ∀ key ∈ side.1.argumentKeys, key = rootKey := by
  intro key isKey
  refine beq_iff_eq.1 (List.all_eq_true.1 onlyRoot key (List.mem_append.2 ?_))
  refine (List.mem_append.1 isSide).imp (fun isWhen => ?_) fun isThan => ?_
  · obtain ⟨path, hasWhen, rfl⟩ := Option.map_eq_some_iff.1 (Option.mem_toList.1 isWhen)
    rwa [hasWhen]
  · obtain ⟨path, hasThan, rfl⟩ := Option.map_eq_some_iff.1 (Option.mem_toList.1 isThan)
    rwa [hasThan]

/-- A predicate with paths is tested on the outcomes of its sides. -/
theorem test_eq {asked : Predicate} (built : Built asked) {path : Path}
    (hasWhen : asked.whenPath = some path) (first : Value) (second : Option Value)
    (options : EvaluateOptions) :
    test asked first second options = (do
      let value ← evaluateRooted path first options
      match asked.thanPath with
      | none => onGraph (asked.test.holds value .undefined)
      | some other =>
          let answer ← evaluateRooted other (secondRoot first second) options
          onGraph (asked.test.holds value answer)) := by
  unfold test
  dsimp only
  rw [hasWhen]
  rcases built.sides hasWhen with ⟨isUnary, noThan⟩ | ⟨isBinary, other, hasThan⟩
  · rw [isUnary, noThan]
  · rw [isBinary, hasThan]
    rfl

/-- A predicate that asks for no argument but the root, and is given no arguments, reads each of
its nodes with the root of the side in the place of every argument, so that none is missing.  It
ends as if each side were evaluated with the map that binds its own root, and if both sides have
the same root, as if it were given this map. -/
theorem test_binds_roots {asked : Predicate} (built : Built asked) {path : Path}
    (hasWhen : asked.whenPath = some path) (onlyRoot : asked.hasOnlyRootKey = true)
    (first : Value) (second : Option Value) :
    (∀ side ∈ sidesOn asked first (secondRoot first second), ∀ node ∈ side.1.nodes,
      ∀ resolver position,
        node.read resolver (rootArguments side.1 side.2 none) position =
          node.readGiven resolver position (node.argumentKeys.map fun _ => side.2)) ∧
    test asked first second ⟨none, none⟩ =
      testRooted asked path first (secondRoot first second) ∧
    (secondRoot first second = first →
      test asked first second ⟨none, none⟩ =
        test asked first second ⟨some [(rootKey, first)], none⟩) := by
  have only : ∀ side ∈ sidesOn asked first (secondRoot first second),
      ∀ key ∈ side.1.argumentKeys, key = rootKey := fun side isSide =>
    key_of_hasOnlyRootKey onlyRoot isSide
  have onlyWhen : ∀ key ∈ path.argumentKeys, key = rootKey :=
    only (path, first) (by simp [sidesOn, hasWhen])
  have onlyThan : ∀ other, asked.thanPath = some other →
      ∀ key ∈ other.argumentKeys, key = rootKey := fun other hasThan =>
    only (other, secondRoot first second) (by simp [sidesOn, hasThan])
  have rooted : test asked first second ⟨none, none⟩ =
      testRooted asked path first (secondRoot first second) := by
    rw [test_eq built hasWhen, testRooted, evaluateRooted_eq onlyWhen]
    refine bind_congr fun value => ?_
    cases hasThan : asked.thanPath with
    | none => rfl
    | some other =>
        dsimp only
        rw [evaluateRooted_eq (onlyThan other hasThan)]
  refine ⟨fun side isSide node member => Path.read_root (only side isSide) member, rooted,
    fun sameRoot => ?_⟩
  rw [rooted, test_eq built hasWhen, testRooted, sameRoot]
  rfl

/-- A predicate asks two texts whether they have slots that are named like them, each its own
root; the first one has, and the second one has not. -/
theorem length_names_a_slot_of_itself :
    ∃ (asked : Predicate) (path : Path) (world : World),
      predicate World.standardPlace "hasOwnProperty(rootObj)" .equal "hasOwnProperty(rootObj)" none
        (.initial .standard) = .ok (some asked) world ∧
      asked.whenPath = some path ∧ asked.hasOnlyRootKey = true ∧
      (test asked (.string "length") (some (.string "size")) ⟨none, none⟩).run' world =
        some false ∧
      (∀ side ∈ sidesOn asked (.string "length") (.string "size"), ∀ node ∈ side.1.nodes,
        ∀ resolver position,
          node.read resolver (rootArguments side.1 side.2 none) position =
            node.readGiven resolver position (node.argumentKeys.map fun _ => side.2)) ∧
      test asked (.string "length") (some (.string "size")) ⟨none, none⟩ =
        testRooted asked path (.string "length") (.string "size") ∧
      test asked (.string "length") none ⟨none, none⟩ =
        test asked (.string "length") none ⟨some [(rootKey, .string "length")], none⟩ := by
  have ran : (predicate World.standardPlace "hasOwnProperty(rootObj)" .equal
      "hasOwnProperty(rootObj)" none >>= fun made => made.elim (pure none) fun asked => do
        let answer ← test asked (.string "length") (some (.string "size")) ⟨none, none⟩
        pure (some (asked.whenPath.isSome, asked.hasOnlyRootKey, answer))).run'
        (.initial .standard) = some (some (true, true, false)) := by
    decide +kernel
  obtain ⟨made, world, ended, onward⟩ := ok_of_bind (ok_of_run' ran)
  cases made with
  | none => cases onward
  | some asked =>
      obtain ⟨answer, later, answered, last⟩ := ok_of_bind onward
      obtain ⟨given, _⟩ := EStateM.Result.ok.inj last
      obtain ⟨isSome, onlyRoot, isFalse⟩ : asked.whenPath.isSome = true ∧
          asked.hasOnlyRootKey = true ∧ answer = false := by
        simpa using given
      obtain ⟨path, hasWhen⟩ := Option.isSome_iff_exists.1 isSome
      have built : Built asked := .made (by rintro _ ⟨⟩) ended
      have tested := test_binds_roots built hasWhen onlyRoot (.string "length")
      refine ⟨asked, path, world, ended, hasWhen, onlyRoot, ?_, (tested (some (.string "size"))).1,
        (tested (some (.string "size"))).2.1, (tested none).2.2 rfl⟩
      rw [run'_of_ok answered, isFalse]

end Session

end ObjectPath
