import ObjectPath.Proofs.JoinedReads

/-!
# Chains of indices

Indices may follow a name in one segment, or stand in segments of their own.  A read without a
factory does not tell the two apart: what a segment gives is what its start gives, with one
element taken after the other, and that is what a row of segments does as well.  So both give the
same value, make the same calls of methods and leave the same world, or fail with faults that
differ in nothing but the texts that they quote.
-/

namespace ObjectPath

/-! ## Faults without the texts that they quote -/

namespace OperationFault

/-- An operation fault without the text of the segment or path that it quotes. -/
def unquoted : OperationFault → OperationFault
  | .notAnArray _ typeName => .notAnArray "" typeName
  | .indexesType _ typeName => .indexesType "" typeName
  | .staticGivenRoot _ => .staticGivenRoot ""
  | .boundElsewhere _ bound given => .boundElsewhere "" bound given
  | .rootTypeMissing _ => .rootTypeMissing ""
  | .otherOwner _ typeName => .otherOwner "" typeName
  | .ownerMissing _ => .ownerMissing ""

end OperationFault

namespace Fault

/-- A fault without the text of the segment or path that it quotes. -/
def unquoted : Fault → Fault
  | .missingArgument _ key => .missingArgument "" key
  | .unsupportedOperation reason => .unsupportedOperation reason.unquoted
  | fault => fault

/-- The text that is quoted does not matter to the class of a fault. -/
@[simp]
theorem category_unquoted (fault : Fault) : fault.unquoted.category = fault.category := by
  cases fault <;> rfl

end Fault

/-! ## Outcomes that differ in quoted texts alone -/

section Akin

variable {σ α β : Type}

/-- Two outcomes in one state are the same value, or faults of one class that differ at most in
the text that they quote. -/
inductive Akin : EStateM.Result Fault σ α → EStateM.Result Fault σ α → Prop
  | ok (value : α) (state : σ) : Akin (.ok value state) (.ok value state)
  | error {fault other : Fault} (state : σ) : fault.unquoted = other.unquoted →
      fault.category = other.category → Akin (.error fault state) (.error other state)

/-- From every state two computations come to outcomes that are akin. -/
def RunAkin (work other : EStateM Fault σ α) : Prop :=
  ∀ state, Akin (work state) (other state)

theorem akin_of_unquoted {fault other : Fault} (state : σ)
    (same : fault.unquoted = other.unquoted) :
    Akin (.error fault state : EStateM.Result Fault σ α) (.error other state) := by
  refine .error state same ?_
  rw [← Fault.category_unquoted fault, same, Fault.category_unquoted]

theorem Akin.refl (outcome : EStateM.Result Fault σ α) : Akin outcome outcome := by
  cases outcome with
  | ok value state => exact .ok value state
  | error fault state => exact .error state rfl rfl

namespace RunAkin

variable {work other third : EStateM Fault σ α}

@[refl]
theorem refl (work : EStateM Fault σ α) : RunAkin work work :=
  fun state => .refl (work state)

theorem of_eq (same : work = other) : RunAkin work other :=
  same ▸ .refl work

theorem symm (akin : RunAkin work other) : RunAkin other work := by
  intro state
  have here := akin state
  generalize work state = first at here ⊢
  generalize other state = second at here ⊢
  cases here with
  | ok value later => exact .ok value later
  | error later same sameClass => exact .error later same.symm sameClass.symm

theorem trans (left : RunAkin work other) (right : RunAkin other third) : RunAkin work third := by
  intro state
  have before := left state
  have after := right state
  generalize work state = first at before ⊢
  generalize other state = second at before after
  generalize third state = last at after ⊢
  cases before with
  | ok => exact after
  | error later same sameClass =>
      cases after with
      | error _ sameAfter sameClassAfter =>
          exact .error later (same.trans sameAfter) (sameClass.trans sameClassAfter)

theorem bind {next onward : α → EStateM Fault σ β} (start : RunAkin work other)
    (rest : ∀ value, RunAkin (next value) (onward value)) :
    RunAkin (work >>= next) (other >>= onward) := by
  intro state
  have akin := start state
  generalize ended : work state = first at akin
  generalize endedOther : other state = second at akin
  cases akin with
  | ok value later =>
      rw [bind_of_ok ended, bind_of_ok endedOther]
      exact rest value later
  | error later same sameClass =>
      rw [bind_of_error ended, bind_of_error endedOther]
      exact .error later same sameClass

theorem onGraph {run other : Run α} (akin : RunAkin run other) :
    RunAkin (Session.onGraph run) (Session.onGraph other) := by
  intro world
  have onward := akin world.graph
  unfold Session.onGraph
  generalize run world.graph = first at onward ⊢
  generalize other world.graph = second at onward ⊢
  cases onward with
  | ok value graph => exact .ok value _
  | error graph same sameClass => exact .error _ same sameClass

end RunAkin

end Akin

namespace Node

/-! ## Reading by form -/

section Forms

variable (resolver : Resolver) (arguments : Option ArgumentMap) (position : Position)

/-- Takes elements in a row, from a value on. -/
def loadAll (indices : List Nat) (value : Value) : Run Value :=
  indices.foldlM (fun array index => loadElement "" index array) value

/-- What the start of a segment gives; a segment that starts with nothing indexes its target. -/
def readBase : Base → Run Value
  | .nothing =>
      match position with
      | .onValue target => pure target
      | .onClass owner => do throw (← indexesType "" owner)
  | .field name => (Node.field 0 name).read resolver arguments position
  | .method name keys => (Node.method 0 "" name keys).read resolver arguments position

/-- What a segment gives: elements of what its start gives. -/
def readForm (form : Form) : Run Value :=
  readBase resolver arguments position form.base >>= loadAll form.indices

theorem loadAll_append (first second : List Nat) (value : Value) :
    loadAll (first ++ second) value = loadAll first value >>= loadAll second :=
  List.foldlM_append

theorem loadAll_cons (index : Nat) (indices : List Nat) (value : Value) :
    loadAll (index :: indices) value = loadElement "" index value >>= loadAll indices :=
  List.foldlM_cons

theorem loadAll_singleton (index : Nat) (value : Value) :
    loadAll [index] value = loadElement "" index value := by
  rw [loadAll_cons]
  exact bind_pure _

/-- No element is taken of a missing value. -/
theorem loadElement_of_isMissing (text : String) (index : Nat) {value : Value}
    (missing : value.isMissing = true) : loadElement text index value = pure .null := by
  rw [loadElement, if_pos missing]

/-- The text of a segment matters to the faults of its elements alone. -/
theorem loadElement_akin (text other : String) (index : Nat) (value : Value) :
    RunAkin (loadElement text index value) (loadElement other index value) := by
  unfold loadElement notAnArray
  split
  · rfl
  · refine (RunAkin.refl get).bind fun graph => ?_
    split
    · rfl
    · simp only [bind_assoc, pure_bind]
      exact (RunAkin.refl _).bind fun name graph => akin_of_unquoted graph rfl

theorem indexesType_akin (text other : String) (owner : Value) :
    RunAkin (indexesType text owner >>= fun fault => (throw fault : Run Value))
      (indexesType other owner >>= fun fault => throw fault) := by
  unfold indexesType
  simp only [bind_assoc, pure_bind]
  exact (RunAkin.refl _).bind fun name graph => akin_of_unquoted graph rfl

theorem valuesOf_akin (text other : String) (entries : ArgumentMap) (keys : List String) :
    RunAkin (Run.lift (valuesOf text entries keys)) (Run.lift (valuesOf other entries keys)) := by
  induction keys with
  | nil => rfl
  | cons key rest inductionHypothesis =>
      unfold valuesOf
      cases Entries.get? entries key with
      | none => exact fun graph => akin_of_unquoted graph rfl
      | some value =>
          intro graph
          have onward := inductionHypothesis graph
          dsimp only
          generalize valuesOf text entries rest = first at onward ⊢
          generalize valuesOf other entries rest = second at onward ⊢
          cases first with
          | error fault =>
              cases second with
              | error other =>
                  cases onward with
                  | error _ same sameClass => exact .error graph same sameClass
              | ok values => cases onward
          | ok values =>
              cases second with
              | error other => cases onward
              | ok others =>
                  cases onward with
                  | ok => exact .ok _ graph

theorem argumentValues_akin (text other : String) (keys : List String) :
    RunAkin (Run.lift (argumentValues text keys arguments))
      (Run.lift (argumentValues other keys arguments)) := by
  cases keys with
  | nil => rfl
  | cons key rest =>
      match arguments with
      | none => exact fun graph => akin_of_unquoted graph rfl
      | some [] => exact fun graph => akin_of_unquoted graph rfl
      | some (entry :: entries) => exact valuesOf_akin text other (entry :: entries) (key :: rest)

/-- A node is read as its segment says. -/
theorem read_akin (node : Node) :
    RunAkin (node.read resolver arguments position)
      (readForm resolver arguments position node.form) := by
  induction node using Node.argumentKeys.induct with
  | case1 serial name => exact .of_eq (bind_pure _).symm
  | case2 serial text name keys =>
      refine RunAkin.trans ?_ (.of_eq (bind_pure _).symm)
      exact (argumentValues_akin arguments text "" keys).bind fun values => .refl _
  | case3 serial text index =>
      unfold readForm readBase form read
      cases position with
      | onValue target =>
          rw [pure_bind, loadAll_singleton]
          exact loadElement_akin text "" index target
      | onClass owner =>
          refine (indexesType_akin text "" owner).trans (.of_eq ?_)
          simp only [bind_assoc]
          rfl
  | case4 serial text index inner inductionHypothesis =>
      have parts : readForm resolver arguments position
          (Node.array serial text index (some inner)).form =
            readForm resolver arguments position inner.form >>= loadElement "" index := by
        simp only [readForm, form, bind_assoc]
        refine bind_congr fun value => ?_
        rw [loadAll_append]
        exact bind_congr (loadAll_singleton index)
      rw [parts]
      exact inductionHypothesis.bind fun array => loadElement_akin text "" index array

/-- Nodes of one segment are read alike. -/
theorem read_akin_of_form {node other : Node} (same : node.form = other.form) :
    RunAkin (node.read resolver arguments position) (other.read resolver arguments position) := by
  have left := read_akin resolver arguments position node
  rw [same] at left
  exact left.trans (read_akin resolver arguments position other).symm

/-- A segment with more indices gives elements of what it gives without them. -/
theorem read_akin_of_indices {node other : Node} {indices : List Nat}
    (more : node.form = ⟨other.form.base, other.form.indices ++ indices⟩) :
    RunAkin (node.read resolver arguments position)
      (other.read resolver arguments position >>= loadAll indices) := by
  refine (read_akin resolver arguments position node).trans ?_
  refine RunAkin.trans ?_ ((read_akin resolver arguments position other).symm.bind fun _ => .refl _)
  refine .of_eq ?_
  rw [more, readForm, readForm, bind_assoc]
  exact bind_congr fun value => loadAll_append _ _ value

end Forms

/-! ## Rows of nodes -/

section Rows

variable (resolver : Resolver) (arguments : Option ArgumentMap)

/-- Rows of the same segments are read alike. -/
theorem readAll_akin {nodes others : List Node} (same : nodes.map form = others.map form)
    (value : Value) :
    RunAkin (readAll resolver arguments value nodes) (readAll resolver arguments value others) := by
  induction nodes generalizing others value with
  | nil =>
      obtain rfl := List.map_eq_nil_iff.1 same.symm
      rfl
  | cons node rest inductionHypothesis =>
      obtain ⟨other, otherRest, rfl, sameNode, sameRest⟩ := List.map_eq_cons_iff.1 same.symm
      unfold readAll
      split
      · rfl
      · exact (read_akin_of_form resolver arguments _ sameNode.symm).bind
          fun next => inductionHypothesis sameRest.symm next

theorem readFrom_akin {nodes others : List Node} (same : nodes.map form = others.map form)
    (position : Position) :
    RunAkin (readFrom resolver arguments position nodes)
      (readFrom resolver arguments position others) := by
  cases nodes with
  | nil =>
      obtain rfl := List.map_eq_nil_iff.1 same.symm
      rfl
  | cons node rest =>
      obtain ⟨other, otherRest, rfl, sameNode, sameRest⟩ := List.map_eq_cons_iff.1 same.symm
      exact (read_akin_of_form resolver arguments position sameNode.symm).bind
        fun next => readAll_akin resolver arguments sameRest.symm next

/-- The segments of single indices. -/
def indexForms (indices : List Nat) : List Form :=
  indices.map fun index => ⟨.nothing, [index]⟩

/-- Indices in segments of their own take one element after the other.  Behind a missing value
there is nothing more to read, and a missing array has no elements. -/
theorem readAll_akin_of_indices {nodes : List Node} {indices : List Nat}
    (forms : nodes.map form = indexForms indices) (rest : List Node) (value : Value) :
    RunAkin (readAll resolver arguments value (nodes ++ rest))
      (loadAll indices value >>= fun element => readAll resolver arguments element rest) := by
  induction indices generalizing nodes value with
  | nil =>
      obtain rfl := List.map_eq_nil_iff.1 forms
      exact .of_eq (pure_bind _ _).symm
  | cons index indices inductionHypothesis =>
      obtain ⟨node, others, rfl, formed, formedOthers⟩ := List.map_eq_cons_iff.1 forms
      rw [List.cons_append, loadAll_cons, bind_assoc]
      cases missing : value.isMissing with
      | true =>
          have nothing := inductionHypothesis formedOthers .null
          rw [readAll_of_isMissing _ _ rfl] at nothing
          rw [readAll_of_isMissing _ _ missing, loadElement_of_isMissing _ _ missing, pure_bind]
          exact nothing
      | false =>
          rw [readAll, if_neg (by simp [missing])]
          refine RunAkin.bind ?_ fun next => inductionHypothesis formedOthers next
          have akin := read_akin resolver arguments (.onValue value) node
          rw [formed, readForm, readBase, pure_bind, loadAll_singleton] at akin
          exact akin

/-! ## Calls in rows -/

/-- The call that the start of a segment makes. -/
def callBase? (position : Position) (graph : Graph) : Base → Option Call
  | .method name keys => (Node.method 0 "" name keys).call? resolver arguments position graph
  | _ => none

/-- The text of a method does not matter to its call. -/
theorem callee_akin (position : Position) (text other name : String) (keys : List String) :
    RunAkin (callee resolver arguments position text name keys)
      (callee resolver arguments position other name keys) :=
  (argumentValues_akin arguments text other keys).bind fun _ => .refl _

/-- Indices make no calls. -/
theorem call?_eq (position : Position) (graph : Graph) (node : Node) :
    node.call? resolver arguments position graph =
      callBase? resolver arguments position graph node.form.base := by
  induction node using Node.argumentKeys.induct with
  | case1 serial name => rfl
  | case2 serial text name keys =>
      have akin := callee_akin resolver arguments position text "" name keys graph
      simp only [form, callBase?, call?]
      generalize callee resolver arguments position text name keys graph = first at akin ⊢
      generalize callee resolver arguments position "" name keys graph = second at akin ⊢
      cases akin <;> rfl
  | case3 serial text index => rfl
  | case4 serial text index inner inductionHypothesis => exact inductionHypothesis

/-- Runs that come to outcomes that are akin are followed by the same calls. -/
theorem callsAfter_akin {run other : Run Value} (akin : RunAkin run other) {nodes others : List Node}
    (same : ∀ value graph, callsOn resolver arguments value nodes graph =
      callsOn resolver arguments value others graph) (graph : Graph) :
    callsAfter resolver arguments run nodes graph =
      callsAfter resolver arguments other others graph := by
  have here := akin graph
  unfold callsAfter
  generalize run graph = first at here ⊢
  generalize other graph = second at here ⊢
  cases here with
  | ok value later => exact same value later
  | error => rfl

theorem calls_cons (position : Position) (node : Node) (rest : List Node) (graph : Graph) :
    calls resolver arguments position (node :: rest) graph =
      (node.call? resolver arguments position graph).toList ++
        callsAfter resolver arguments (node.read resolver arguments position) rest graph := by
  rw [calls]
  rfl

/-- Rows of the same segments make the same calls. -/
theorem calls_eq_of_forms {nodes others : List Node} (same : nodes.map form = others.map form)
    (position : Position) (graph : Graph) :
    calls resolver arguments position nodes graph =
      calls resolver arguments position others graph := by
  induction nodes generalizing others position graph with
  | nil =>
      obtain rfl := List.map_eq_nil_iff.1 same.symm
      rfl
  | cons node rest inductionHypothesis =>
      obtain ⟨other, otherRest, rfl, sameNode, sameRest⟩ := List.map_eq_cons_iff.1 same.symm
      rw [calls_cons, calls_cons, call?_eq, call?_eq, sameNode]
      congr 1
      refine callsAfter_akin resolver arguments
        (read_akin_of_form resolver arguments position sameNode.symm) (fun value later => ?_) graph
      unfold callsOn
      rw [inductionHypothesis sameRest.symm]

theorem callsOn_eq_of_forms {nodes others : List Node} (same : nodes.map form = others.map form)
    (value : Value) (graph : Graph) :
    callsOn resolver arguments value nodes graph =
      callsOn resolver arguments value others graph := by
  rw [callsOn, callsOn, calls_eq_of_forms resolver arguments same]

/-- Indices in segments of their own make no calls; those of the other segments are made on the
elements. -/
theorem callsOn_of_indices {nodes : List Node} {indices : List Nat}
    (forms : nodes.map form = indexForms indices) (rest : List Node) (value : Value)
    (graph : Graph) :
    callsOn resolver arguments value (nodes ++ rest) graph =
      callsAfter resolver arguments (loadAll indices value) rest graph := by
  induction indices generalizing nodes value graph with
  | nil =>
      obtain rfl := List.map_eq_nil_iff.1 forms
      rfl
  | cons index indices inductionHypothesis =>
      obtain ⟨node, others, rfl, formed, formedOthers⟩ := List.map_eq_cons_iff.1 forms
      rw [List.cons_append, loadAll_cons]
      cases missing : value.isMissing with
      | true =>
          rw [loadElement_of_isMissing _ _ missing, pure_bind, ← inductionHypothesis formedOthers,
            callsOn, callsOn, missing]
          rfl
      | false =>
          have akin := read_akin resolver arguments (.onValue value) node
          rw [formed, readForm, readBase, pure_bind, loadAll_singleton] at akin
          have here := akin graph
          rw [callsOn, missing, if_neg Bool.false_ne_true, calls_cons, call?_eq, formed]
          simp only [callBase?, Option.toList_none, List.nil_append]
          unfold callsAfter
          generalize ended : node.read resolver arguments (.onValue value) graph = first at here ⊢
          generalize endedOther : loadElement "" index value graph = second at here ⊢
          cases here with
          | ok next later =>
              rw [bind_of_ok endedOther]
              exact inductionHypothesis formedOthers next later
          | error => rw [bind_of_error endedOther]

/-! ## A chain in one segment and in several -/

/-- Two rows of nodes have the same segments, save that the indices at the end of one segment of
the first row stand in segments of their own in the second. -/
structure Unchains (fused split : List Node) (first rest : List Form) (start : Form)
    (indices : List Nat) : Prop where
  fused : fused.map form = first ++ ⟨start.base, start.indices ++ indices⟩ :: rest
  split : split.map form = first ++ (start :: indexForms indices ++ rest)

variable {fused split : List Node} {first rest : List Form} {start : Form} {indices : List Nat}

/-- The parts of the two rows. -/
theorem Unchains.parts (unchains : Unchains fused split first rest start indices) :
    ∃ before node after beforeSplit start' loose afterSplit,
      fused = before ++ node :: after ∧
      split = beforeSplit ++ (start' :: loose ++ afterSplit) ∧
      before.map form = beforeSplit.map form ∧
      node.form = ⟨start'.form.base, start'.form.indices ++ indices⟩ ∧
      loose.map form = indexForms indices ∧ after.map form = afterSplit.map form := by
  obtain ⟨before, tail, rfl, formsBefore, formsTail⟩ := List.map_eq_append_iff.1 unchains.fused
  obtain ⟨node, after, rfl, formed, formsAfter⟩ := List.map_eq_cons_iff.1 formsTail
  obtain ⟨beforeSplit, tailSplit, rfl, formsBeforeSplit, formsTailSplit⟩ :=
    List.map_eq_append_iff.1 unchains.split
  obtain ⟨start', others, rfl, rfl, formsOthers⟩ := List.map_eq_cons_iff.1 formsTailSplit
  obtain ⟨loose, afterSplit, rfl, formsLoose, formsAfterSplit⟩ :=
    List.map_eq_append_iff.1 formsOthers
  exact ⟨before, node, after, beforeSplit, start', loose, afterSplit, rfl, rfl,
    formsBefore.trans formsBeforeSplit.symm, formed, formsLoose,
    formsAfter.trans formsAfterSplit.symm⟩

theorem Unchains.readFrom (unchains : Unchains fused split first rest start indices)
    (position : Position) :
    RunAkin (readFrom resolver arguments position fused)
      (Node.readFrom resolver arguments position split) := by
  obtain ⟨before, node, after, beforeSplit, start', loose, afterSplit, rfl, rfl, sameBefore, formed,
    formsLoose, sameAfter⟩ := unchains.parts
  have chain : ∀ position, RunAkin (Node.readFrom resolver arguments position (node :: after))
      (Node.readFrom resolver arguments position (start' :: loose ++ afterSplit)) := by
    intro position
    refine RunAkin.trans ?_ ((RunAkin.refl _).bind fun value =>
      (readAll_akin_of_indices resolver arguments formsLoose afterSplit value).symm)
    refine RunAkin.trans ((read_akin_of_indices resolver arguments position formed).bind fun value =>
      readAll_akin resolver arguments sameAfter value) (.of_eq ?_)
    rw [bind_assoc]
  by_cases some : before = []
  · subst some
    obtain rfl : beforeSplit = [] := List.map_eq_nil_iff.1 sameBefore.symm
    exact chain position
  · have someSplit : beforeSplit ≠ [] := by
      rintro rfl
      exact some (List.map_eq_nil_iff.1 sameBefore)
    rw [readFrom_append _ _ _ some, readFrom_append _ _ _ someSplit]
    refine (readFrom_akin resolver arguments sameBefore position).bind fun middle => ?_
    cases missing : middle.isMissing with
    | true => rw [readAll_of_isMissing _ _ missing, readAll_of_isMissing _ _ missing]
    | false =>
        rw [List.cons_append, readAll_of_present _ _ missing (List.cons_ne_nil _ _),
          readAll_of_present _ _ missing (List.cons_ne_nil _ _)]
        exact chain (.onValue middle)

theorem Unchains.calls (unchains : Unchains fused split first rest start indices)
    (position : Position) (graph : Graph) :
    calls resolver arguments position fused graph =
      Node.calls resolver arguments position split graph := by
  obtain ⟨before, node, after, beforeSplit, start', loose, afterSplit, rfl, rfl, sameBefore, formed,
    formsLoose, sameAfter⟩ := unchains.parts
  have chain : ∀ position graph, Node.calls resolver arguments position (node :: after) graph =
      Node.calls resolver arguments position (start' :: loose ++ afterSplit) graph := by
    intro position graph
    have akin := read_akin_of_indices resolver arguments position formed
    rw [List.cons_append, calls_cons, calls_cons, call?_eq, call?_eq, formed,
      callsAfter_akin resolver arguments akin (callsOn_eq_of_forms resolver arguments sameAfter)]
    congr 1
    unfold callsAfter
    cases ended : start'.read resolver arguments position graph with
    | error fault later => rw [bind_of_error ended]
    | ok value later =>
        rw [bind_of_ok ended]
        exact (callsOn_of_indices resolver arguments formsLoose afterSplit value later).symm
  by_cases some : before = []
  · subst some
    obtain rfl : beforeSplit = [] := List.map_eq_nil_iff.1 sameBefore.symm
    exact chain position graph
  · have someSplit : beforeSplit ≠ [] := by
      rintro rfl
      exact some (List.map_eq_nil_iff.1 sameBefore)
    rw [calls_append _ _ _ some, calls_append _ _ _ someSplit,
      calls_eq_of_forms resolver arguments sameBefore]
    congr 1
    refine callsAfter_akin resolver arguments (readFrom_akin resolver arguments sameBefore position)
      (fun value later => ?_) graph
    unfold callsOn
    rw [chain]

end Rows

end Node

namespace Session

open Node

/-- Where a path starts that has a root type or is given one does not depend on its text. -/
theorem staticRoot_akin {path other : Path} (sameType : path.rootType = other.rootType)
    (given : Option Value) : RunAkin (staticRoot path given) (staticRoot other given) := by
  unfold staticRoot
  rw [sameType]
  cases other.rootType with
  | none =>
      cases given with
      | none => exact fun world => akin_of_unquoted world rfl
      | some owner => rfl
  | some bound =>
      cases given with
      | none => rfl
      | some owner =>
          dsimp only
          split
          · rfl
          · refine (RunAkin.refl _).bind fun boundText => (RunAkin.refl _).bind fun ownerText => ?_
            exact fun world => akin_of_unquoted world rfl

/-- A chain of indices is read in one segment as it is in several, wherever it stands in a path:
from every root, and from every type for a static path or one that is given a type, the two paths
give the same value or fail with faults of one class, and leave the same world.  They make the same
calls of methods, in the same order and in the same graphs. -/
theorem index_chains_read_alike {path split : Path} {first rest : List Form} {start : Form}
    {indices : List Nat} (sameCompiler : path.compiler = split.compiler)
    (sameType : path.rootType = split.rootType)
    (unchains : Unchains path.nodes split.nodes first rest start indices)
    (arguments : Option ArgumentMap) (now : World) :
    (∀ root, Akin (getValue path root ⟨arguments, none⟩ now)
      (getValue split root ⟨arguments, none⟩ now)) ∧
    (∀ given, Akin (getStaticValue path given ⟨arguments, none⟩ now)
      (getStaticValue split given ⟨arguments, none⟩ now)) ∧
    ∀ position, calls (path.resolverIn now) arguments position path.nodes now.graph =
      calls (split.resolverIn now) arguments position split.nodes now.graph := by
  have sameResolver : ∀ world, path.resolverIn world = split.resolverIn world := fun world => by
    rw [Path.resolverIn, Path.resolverIn, sameCompiler]
  have evaluates : ∀ position,
      RunAkin (evaluate path position ⟨arguments, none⟩)
        (evaluate split position ⟨arguments, none⟩) := by
    intro position world
    rw [evaluate_eq, evaluate_eq, sameResolver]
    exact (unchains.readFrom (split.resolverIn world) arguments position).onGraph world
  refine ⟨fun root => ?_, fun given => ?_, fun position => ?_⟩
  · unfold getValue Path.isStatic
    rw [sameType]
    split
    · exact .refl _
    · split
      · exact akin_of_unquoted now rfl
      · exact evaluates _ now
  · exact ((staticRoot_akin sameType given).bind evaluates) now
  · rw [sameResolver]
    exact unchains.calls (split.resolverIn now) arguments position now.graph

/-- The path of one cell of a grid, with a segment for each index. -/
def looseCellPath : Path where
  compiler := World.standardPlace
  serial := 1
  source := "cells.[1].[0]"
  nodes := [.field 0 "cells", .array 3 "[1]" 1 none, .array 4 "[0]" 0 none]
  nodes_ne_nil := List.cons_ne_nil _ _
  rootType := none

/-- A cell of a grid is read alike by both of its paths. -/
theorem cell_reads_alike :
    cellPath.compiler = looseCellPath.compiler ∧ cellPath.rootType = looseCellPath.rootType ∧
      Unchains cellPath.nodes looseCellPath.nodes [] [] ⟨.field "cells", []⟩ [1, 0] ∧
      Akin (getValue cellPath emptyGrid ⟨none, none⟩ gridWorld)
        (getValue looseCellPath emptyGrid ⟨none, none⟩ gridWorld) := by
  have unchains : Unchains cellPath.nodes looseCellPath.nodes [] [] ⟨.field "cells", []⟩ [1, 0] :=
    ⟨rfl, rfl⟩
  have sameType : cellPath.rootType = looseCellPath.rootType := rfl
  have sameCompiler : cellPath.compiler = looseCellPath.compiler := rfl
  exact ⟨sameCompiler, sameType, unchains,
    (index_chains_read_alike sameCompiler sameType unchains none gridWorld).1 emptyGrid⟩

end Session

end ObjectPath
