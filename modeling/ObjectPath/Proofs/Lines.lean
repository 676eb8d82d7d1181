import ObjectPath.Proofs.Joining
import ObjectPath.Proofs.Route

/-!
# Lines of texts

A text of fields and indices stands for a line of steps, wherever its segments end and however its
indices are written.  A path that has the text takes these steps.
-/

namespace ObjectPath

/-- Whether a segment calls no method. -/
def Form.isPlain (form : Form) : Bool :=
  match form.base with
  | .method _ _ => false
  | _ => true

/-- The steps of a segment that calls no method: its field, if it has one, and its indices. -/
def Form.steps (resolver : Resolver) (form : Form) : List Step :=
  (match form.base with
    | .field name => [.field (resolver.actualName name)]
    | _ => []) ++ form.indices.map .element

/-- A text is written with fields and indices, and these are its steps in order. -/
def PathText.Lists (resolver : Resolver) (text : String) (line : List Step) : Prop :=
  ∃ forms segments, PathText.Spells forms segments (Text.trim text).toList ∧
    (∀ form ∈ forms, form.isPlain = true) ∧ line = forms.flatMap (Form.steps resolver)

/-! ## Texts that are read -/

/-- The segment that a part of a text spells, if it can be read. -/
def PathText.form? (segment : List Char) : Option Form :=
  (NodeTable.read segment).toOption.map Node.form

/-- The steps of a text, if it can be split and its parts can be read and call no methods. -/
def PathText.line? (resolver : Resolver) (text : String) : Option (List Step) :=
  match (splitList (Text.trim text).toList).toOption.bind (List.mapM PathText.form?) with
  | some forms => if forms.all Form.isPlain then some (forms.flatMap (Form.steps resolver)) else none
  | none => none

theorem ok_of_toOption {α β : Type} {outcome : Except α β} {value : β}
    (found : outcome.toOption = some value) : outcome = .ok value := by
  cases outcome with
  | error fault => cases found
  | ok other =>
      cases found
      rfl

theorem PathText.spells_of_form? {segment : List Char} {form : Form}
    (found : PathText.form? segment = some form) : form.Spells segment := by
  obtain ⟨node, read, rfl⟩ := Option.map_eq_some_iff.1 found
  exact (NodeTable.spells_of_read (ok_of_toOption read)).1

theorem PathText.spells_of_forms? {segments : List (List Char)} {forms : List Form}
    (found : segments.mapM PathText.form? = some forms) :
    List.Forall₂ Form.Spells forms segments := by
  induction segments generalizing forms with
  | nil =>
      cases found
      exact .nil
  | cons segment rest inductionHypothesis =>
      rw [List.mapM_cons] at found
      obtain ⟨form, first, found⟩ := Option.bind_eq_some_iff.1 found
      obtain ⟨others, remaining, found⟩ := Option.bind_eq_some_iff.1 found
      cases found
      exact .cons (spells_of_form? first) (inductionHypothesis remaining)

theorem PathText.lists_of_line? {resolver : Resolver} {text : String} {line : List Step}
    (found : PathText.line? resolver text = some line) : PathText.Lists resolver text line := by
  unfold PathText.line? at found
  split at found
  · rename_i forms read
    obtain ⟨segments, split, read⟩ := Option.bind_eq_some_iff.1 read
    split at found
    · rename_i plain
      cases found
      exact ⟨forms, segments, spells_of_splitList (ok_of_toOption split)
        (spells_of_forms? read), List.all_eq_true.1 plain, rfl⟩
    · cases found
  · cases found

/-! ## Paths that have a text -/

/-- A node whose segment calls no method calls none, and takes the steps of the segment. -/
theorem Node.steps_of_form (resolver : Resolver) {node : Node} (plain : node.form.isPlain = true) :
    node.isPlain = true ∧ node.steps resolver = node.form.steps resolver := by
  fun_induction Node.form node with
  | case1 serial name => exact ⟨rfl, rfl⟩
  | case2 serial text name keys => cases plain
  | case3 serial text index => exact ⟨rfl, rfl⟩
  | case4 serial text index inner inductionHypothesis =>
      obtain ⟨isPlain, same⟩ := inductionHypothesis plain
      refine ⟨isPlain, ?_⟩
      rw [Node.steps, Node.leading, Node.final, ← Node.steps, same, Form.steps, Form.steps,
        List.map_append, List.append_assoc]
      rfl

/-- A path that starts from a root takes the steps that its text lists. -/
theorem Path.IsRead.steps_of_lists {registry : Registry} {path : Path}
    (isRead : path.IsRead registry) (noType : path.rootType = none) {resolver : Resolver}
    {text : String} {line : List Step} (source : path.source = Text.trim text)
    (lists : PathText.Lists resolver text line) :
    path.IsPlain ∧ path.steps resolver = line := by
  obtain ⟨segments, spelled, _⟩ := isRead.spells_of_plain noType
  obtain ⟨forms, texts, spells, plain, rfl⟩ := lists
  rw [source] at spelled
  obtain ⟨rfl, _⟩ := spells.unique spelled
  have plainNodes : ∀ node ∈ path.nodes, node.form.isPlain = true :=
    fun node member => plain _ (List.mem_map_of_mem member)
  refine ⟨fun node member => (Node.steps_of_form resolver (plainNodes node member)).1, ?_⟩
  rw [Path.steps, stepsOf, List.flatMap_map]
  exact List.flatMap_congr fun node member =>
    (Node.steps_of_form resolver (plainNodes node member)).2

end ObjectPath
