import ObjectPath.Proofs.Grammar

/-!
# Node tables

A node table has a node for every text that spells a segment and for no other text, and the
node is made for the segment that its text spells.  What it gives for a text does not depend on
what it has: up to its numbers it is what a table without nodes gives, and it is found again
from then on.
-/

namespace ObjectPath

/-- The segment that a node was made for. -/
def Node.form : Node → Form
  | .field _ name => ⟨.field name, []⟩
  | .method _ _ name keys => ⟨.method name keys, []⟩
  | .array _ _ index none => ⟨.nothing, [index]⟩
  | .array _ _ index (some inner) => ⟨inner.form.base, inner.form.indices ++ [index]⟩

/-- The node without the number that its table gave it. -/
def Node.bare : Node → Node
  | .field _ name => .field 0 name
  | .method _ text name keys => .method 0 text name keys
  | .array _ text index none => .array 0 text index none
  | .array _ text index (some inner) => .array 0 text index (some inner.bare)

@[simp]
theorem Node.text_bare (node : Node) : node.bare.text = node.text := by
  rcases node with _ | _ | ⟨_, _, _, _ | _⟩ <;> rfl

@[simp]
theorem Node.form_bare (node : Node) : node.bare.form = node.form := by
  fun_induction Node.bare node with
  | case1 => rfl
  | case2 => rfl
  | case3 => rfl
  | case4 serial text index inner inductionHypothesis =>
      rw [Node.form, inductionHypothesis, Node.form]

theorem exists_field_of_forms {nodes : List Node} {name : String}
    (forms : nodes.map Node.form = [⟨.field name, []⟩]) :
    ∃ serial, nodes = [.field serial name] := by
  obtain ⟨node, rest, same, form, nothing⟩ := List.map_eq_cons_iff.1 forms
  rw [List.map_eq_nil_iff] at nothing
  cases node with
  | field serial name =>
      cases form
      exact ⟨serial, by rw [same, nothing]⟩
  | method => cases form
  | array serial text index inner => cases inner <;> simp [Node.form] at form

namespace NodeTable

/-! ## Segments -/

/-- Every node of a table has the text it is entered under, which spells its segment. -/
def Formed (table : NodeTable) : Prop :=
  ∀ text node, Entries.get? table.entries text = some node →
    node.text = text ∧ node.form.Spells text.toList

theorem formed_of_entries_nil {table : NodeTable} (nothing : table.entries = []) : table.Formed := by
  intro text node found
  rw [nothing] at found
  cases found

theorem Formed.enter {table : NodeTable} (formed : table.Formed) {text : List Char} {node : Node}
    (sameText : node.text = String.ofList text) (spells : node.form.Spells text) :
    (table.enter (String.ofList text) node).2.Formed := by
  intro name other found
  rw [NodeTable.enter, Entries.get?_append] at found
  split at found
  · rename_i earlier
    cases found
    exact formed name other earlier
  · split at found
    · rename_i same
      cases found
      cases same
      exact ⟨sameText, by rwa [String.toList_ofList]⟩
    · cases found

/-- What a table gives for a text: a node for what the text spells, or a fault if it spells
nothing. -/
def Interned (text : List Char) : Except Fault (Node × NodeTable) → Prop
  | .ok (node, later) =>
      later.Formed ∧ node.text = String.ofList text ∧ node.form.Spells text
  | .error fault => (∃ name reason, fault = .invalidExpression name reason none) ∧
      ∀ form : Form, ¬ form.Spells text

theorem interned_node {table : NodeTable} (formed : table.Formed) (text : List Char) :
    Interned text (table.node text) := by
  fun_induction NodeTable.node table text with
  | case1 text name node found =>
      obtain ⟨sameText, spells⟩ := formed _ _ found
      rw [String.toList_ofList] at spells
      exact ⟨formed, sameText, spells⟩
  | case2 text name absent last reason read =>
      refine ⟨⟨_, _, rfl⟩, fun form spells => ?_⟩
      obtain ⟨_, _, _, readable⟩ := spells.readMethod last
      rw [read] at readable
      cases readable
  | case3 text name absent last method keys read =>
      obtain ⟨identifier, inside, keysSpell, rfl⟩ := (readMethod_ok_iff last).1 read
      have spells : Form.Spells ⟨.method (String.ofList method) (keys.map String.ofList), []⟩
          (method ++ '(' :: inside ++ [')']) :=
        Form.spells_base.2 ⟨Base.spells_method identifier keysSpell, by simp⟩
      exact ⟨formed.enter rfl spells, rfl, spells⟩
  | case4 text name absent last reason read =>
      refine ⟨⟨_, _, rfl⟩, fun form spells => ?_⟩
      obtain ⟨_, _, _, _, _, readable, _⟩ := spells.readArray last
      rw [read] at readable
      cases readable
  | case5 text name absent last inner index read shorter nothing =>
      rw [List.isEmpty_iff] at nothing
      obtain ⟨suffix, ends, rfl⟩ := (readArray_ok_iff last).1 read
      have spells : Form.Spells ⟨.nothing, [] ++ [index]⟩ (inner ++ suffix) :=
        Form.spells_index.2 ⟨inner, suffix, ends, rfl, Or.inl ⟨nothing, rfl, rfl⟩⟩
      exact ⟨formed.enter rfl spells, rfl, spells⟩
  | case6 text name absent last inner index read shorter something reason found innerSpells =>
      rw [found] at innerSpells
      refine ⟨innerSpells.1, fun form spells => ?_⟩
      obtain ⟨base, indices, _, _, _, readable, before⟩ := spells.readArray last
      rw [read] at readable
      cases readable
      rcases before with ⟨nothing, _⟩ | spellsInner
      · exact something (List.isEmpty_iff.2 nothing)
      · exact innerSpells.2 _ spellsInner
  | case7 text name absent last inner index read shorter something innerNode later found
      innerSpells =>
      rw [found] at innerSpells
      obtain ⟨laterFormed, _, spellsInner⟩ := innerSpells
      obtain ⟨suffix, ends, rfl⟩ := (readArray_ok_iff last).1 read
      have spells : Form.Spells ⟨innerNode.form.base, innerNode.form.indices ++ [index]⟩
          (inner ++ suffix) :=
        Form.spells_index.2 ⟨inner, suffix, ends, rfl, Or.inr spellsInner⟩
      exact ⟨laterFormed.enter rfl spells, rfl, spells⟩
  | case8 text name absent identifier =>
      have spells : Form.Spells ⟨.field name, []⟩ text :=
        Form.spells_base.2 ⟨Base.spells_field identifier, by simp⟩
      exact ⟨formed.enter rfl spells, rfl, spells⟩
  | case9 text name absent notIdentifier noParenthesis noBracket =>
      refine ⟨⟨_, _, rfl⟩, fun form spells => ?_⟩
      exact notIdentifier (spells.isIdentifierList noParenthesis noBracket).2

/-! ## Equations -/

section Equations

variable {table : NodeTable} {text inner : List Char} {index : Nat}
  (absent : Entries.get? table.entries (String.ofList text) = none)
  (last : text.getLast? = some ']')

include absent last

theorem node_of_readArray_error {reason : ExpressionFault}
    (refused : Segment.readArray text = .error reason) :
    table.node text = .error (fault text reason) := by
  rw [NodeTable.node]
  simp only [absent, last]
  split <;> rename_i found <;> rw [refused] at found <;> cases found
  rfl

/-- The node of an index that stands alone. -/
theorem node_of_readArray_nil (ends : Segment.readArray text = .ok ([], index)) :
    table.node text = .ok (table.enter (String.ofList text)
      (.array table.nextSerial (String.ofList text) index none)) := by
  rw [NodeTable.node]
  simp only [absent, last]
  split <;> rename_i found <;> rw [ends] at found <;> cases found
  rfl

/-- The node of an index after something else is made from the node of what comes before. -/
theorem node_of_readArray (ends : Segment.readArray text = .ok (inner, index))
    (something : inner ≠ []) :
    table.node text = (table.node inner).map fun made =>
      made.2.enter (String.ofList text)
        (.array made.2.nextSerial (String.ofList text) index (some made.1)) := by
  rw [NodeTable.node]
  simp only [absent, last]
  split <;> rename_i found <;> rw [ends] at found <;> cases found
  rw [if_neg (by rwa [List.isEmpty_iff])]
  cases table.node inner <;> rfl

omit last in
/-- The node of a text without a closing parenthesis or bracket at its end. -/
theorem node_of_word (noParenthesis : text.getLast? ≠ some ')')
    (noBracket : text.getLast? ≠ some ']') :
    table.node text = if Text.isIdentifierList text then
        .ok (table.enter (String.ofList text) (.field table.nextSerial (String.ofList text)))
      else .error (fault text .fieldName) := by
  rw [NodeTable.node]
  simp only [absent]

end Equations

/-! ## Reading afresh -/

@[simp]
theorem get?_empty (name : String) : Entries.get? empty.entries name = none :=
  rfl

/-- The node that a table without nodes makes of a text. -/
def read (text : List Char) : Except Fault Node :=
  (empty.node text).map (·.1.bare)

/-- Every node of a table is the one that a table without nodes makes of its text. -/
def Faithful (table : NodeTable) : Prop :=
  ∀ text node, Entries.get? table.entries text = some node → read text.toList = .ok node.bare

theorem faithful_of_entries_nil {table : NodeTable} (nothing : table.entries = []) :
    table.Faithful := by
  intro text node found
  rw [nothing] at found
  cases found

theorem Faithful.enter {table : NodeTable} (faithful : table.Faithful) {text : List Char}
    {node : Node} (same : read text = .ok node.bare) :
    (table.enter (String.ofList text) node).2.Faithful := by
  intro name other found
  rw [NodeTable.enter, Entries.get?_append] at found
  split at found
  · rename_i earlier
    cases found
    exact faithful name other earlier
  · split at found
    · rename_i sameName
      cases found
      cases sameName
      rwa [String.toList_ofList]
    · cases found

/-- What a table gives for a text is what a table without nodes gives. -/
def Rereads (text : List Char) : Except Fault (Node × NodeTable) → Prop
  | .ok (node, later) => later.Faithful ∧ read text = .ok node.bare
  | .error fault => read text = .error fault

theorem read_of_readArray {text inner : List Char} {index : Nat} (last : text.getLast? = some ']')
    (ends : Segment.readArray text = .ok (inner, index)) (something : inner ≠ []) :
    read text = (read inner).map fun node =>
      .array 0 (String.ofList text) index (some node) := by
  rw [read, node_of_readArray rfl last ends something, read]
  cases empty.node inner <;> rfl

theorem rereads_node {table : NodeTable} (faithful : table.Faithful) (text : List Char) :
    Rereads text (table.node text) := by
  fun_induction NodeTable.node table text with
  | case1 text name node found =>
      have same := faithful _ _ found
      rw [String.toList_ofList] at same
      exact ⟨faithful, same⟩
  | case2 text name absent last reason found =>
      rw [Rereads, read, NodeTable.node]
      simp only [get?_empty, last, found]
      rfl
  | case3 text name absent last method keys found =>
      have same : read text = .ok
          (.method 0 (String.ofList text) (String.ofList method) (keys.map String.ofList)) := by
        rw [read, NodeTable.node]
        simp only [get?_empty, last, found]
        rfl
      exact ⟨faithful.enter same, same⟩
  | case4 text name absent last reason refused =>
      rw [Rereads, read, node_of_readArray_error (get?_empty _) last refused]
      rfl
  | case5 text name absent last inner index ends shorter nothing =>
      rw [List.isEmpty_iff] at nothing
      subst nothing
      have same : read text = .ok (.array 0 (String.ofList text) index none) := by
        rw [read, node_of_readArray_nil (get?_empty _) last ends]
        rfl
      exact ⟨faithful.enter same, same⟩
  | case6 text name absent last inner index ends shorter something reason failed innerSame =>
      rw [failed] at innerSame
      rw [Rereads, read_of_readArray last ends (by rwa [List.isEmpty_iff] at something),
        innerSame]
      rfl
  | case7 text name absent last inner index ends shorter something innerNode later made
      innerSame =>
      rw [made] at innerSame
      obtain ⟨laterFaithful, sameInner⟩ := innerSame
      have same : read text = .ok (.array 0 (String.ofList text) index (some innerNode.bare)) := by
        rw [read_of_readArray last ends (by rwa [List.isEmpty_iff] at something), sameInner]
        rfl
      exact ⟨laterFaithful.enter same, same⟩
  | case8 text name absent identifier noParenthesis noBracket =>
      have same : read text = .ok (.field 0 (String.ofList text)) := by
        rw [read, node_of_word (get?_empty _) noParenthesis noBracket, if_pos identifier]
        rfl
      exact ⟨faithful.enter same, same⟩
  | case9 text name absent noIdentifier noParenthesis noBracket =>
      rw [Rereads, read, node_of_word (get?_empty _) noParenthesis noBracket, if_neg noIdentifier]
      rfl

theorem spells_of_read {text : List Char} {node : Node} (found : read text = .ok node) :
    node.form.Spells text ∧ node.text = String.ofList text := by
  have interned := interned_node (formed_of_entries_nil (rfl : empty.entries = [])) text
  unfold read at found
  cases made : empty.node text with
  | error fault =>
      rw [made] at found
      cases found
  | ok result =>
      rw [made] at found interned
      cases found
      rw [Node.form_bare, Node.text_bare]
      exact ⟨interned.2.2, interned.2.1⟩

/-- From every text that spells a segment a node of that segment is read. -/
theorem read_of_spells {text : List Char} {form : Form} (spells : form.Spells text) :
    ∃ node : Node, read text = .ok node.bare ∧ node.form = form := by
  have interned := interned_node (formed_of_entries_nil (rfl : empty.entries = [])) text
  unfold read
  cases made : empty.node text with
  | error fault =>
      rw [made] at interned
      exact absurd spells (interned.2 form)
  | ok result =>
      rw [made] at interned
      exact ⟨result.1, rfl, interned.2.2.unique spells⟩

/-- What is refused spells no segment. -/
theorem not_spells_of_refused {table : NodeTable} (faithful : table.Faithful) {text : List Char}
    {fault : Fault} (refused : table.node text = .error fault) (form : Form) :
    ¬ form.Spells text := by
  intro spells
  have reread := rereads_node faithful text
  rw [refused] at reread
  obtain ⟨node, found, _⟩ := read_of_spells spells
  cases found.symm.trans reread

/-! ## Nodes found again -/

/-- A table keeps the nodes of another one; what it has besides is for texts that are no
longer than a bound. -/
structure Extends (bound : Nat) (before after : NodeTable) : Prop where
  keeps : ∀ name node, Entries.get? before.entries name = some node →
    Entries.get? after.entries name = some node
  short : ∀ name node, Entries.get? after.entries name = some node →
    Entries.get? before.entries name = some node ∨ name.toList.length ≤ bound

theorem Extends.refl (bound : Nat) (table : NodeTable) : Extends bound table table :=
  ⟨fun _ _ => id, fun _ _ => Or.inl⟩

theorem Extends.enter {bound : Nat} {before after : NodeTable} {text : List Char}
    (extended : Extends bound before after)
    (longer : bound ≤ text.length) (node : Node) :
    Extends text.length before (after.enter (String.ofList text) node).2 where
  keeps := fun name other found => by
    rw [NodeTable.enter, Entries.get?_append, extended.keeps name other found]
  short := fun name other found => by
    rw [NodeTable.enter, Entries.get?_append] at found
    split at found
    · rename_i earlier
      cases found
      exact (extended.short name other earlier).imp_right fun short => short.trans longer
    · split at found
      · rename_i same
        cases same
        exact Or.inr (by rw [String.toList_ofList])
      · cases found

theorem get?_enter {table : NodeTable} {name : String}
    (absent : Entries.get? table.entries name = none) (node : Node) :
    Entries.get? (table.enter name node).2.entries name = some node := by
  rw [NodeTable.enter, Entries.get?_append, absent]
  exact if_pos rfl

/-- A node that a table gives is found in it from then on. -/
theorem extends_node {table later : NodeTable} {text : List Char} {node : Node}
    (made : table.node text = .ok (node, later)) :
    Extends text.length table later ∧
      Entries.get? later.entries (String.ofList text) = some node := by
  fun_induction NodeTable.node table text generalizing node later with
  | case1 text name node =>
      rename_i found
      cases made
      exact ⟨.refl _ _, found⟩
  | case2 => cases made
  | case3 text name absent =>
      cases made
      exact ⟨(Extends.refl 0 table).enter (Nat.zero_le _) _, get?_enter absent _⟩
  | case4 => cases made
  | case5 text name absent =>
      cases made
      exact ⟨(Extends.refl 0 table).enter (Nat.zero_le _) _, get?_enter absent _⟩
  | case6 => cases made
  | case7 text name absent last inner index ends shorter something innerNode middle found =>
      rename_i inductionHypothesis
      have extended := (inductionHypothesis found).1
      cases made
      -- The text of the inner node is shorter, so the text itself has no node yet.
      have stillAbsent : Entries.get? middle.entries name = none := by
        rw [Option.eq_none_iff_forall_ne_some]
        intro other earlier
        rcases extended.short _ _ earlier with present | short
        · rw [absent] at present
          cases present
        · rw [String.toList_ofList] at short
          exact absurd shorter (Nat.not_lt.2 short)
      exact ⟨extended.enter shorter.le _, get?_enter stillAbsent _⟩
  | case8 text name absent =>
      cases made
      exact ⟨(Extends.refl 0 table).enter (Nat.zero_le _) _, get?_enter absent _⟩
  | case9 => cases made

end NodeTable

end ObjectPath
