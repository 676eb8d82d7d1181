import Mathlib.Data.List.Infix
import Mathlib.Data.List.Nodup
import ObjectPath.Proofs.Interning

/-!
# Nodes that are made once

The node of an index is made after the node of what comes before it, by another call on the same
table, so a call could leave a part of its work behind when it fails.  Here the calls are told step
by step, each on the table that the one before has left.  What they come to is what the table says
in one go: a call that is refused leaves nothing, and one that is answered leaves the nodes that
were missing, each with the inner node that the table has for it.
-/

namespace ObjectPath.NodeTable

/-! ## Calls -/

/-- Enters a node that was made with the next number; a map keeps one entry for a text. -/
def set (table : NodeTable) (text : List Char) (node : Node) : NodeTable :=
  ⟨Entries.put table.entries (String.ofList text) node, table.nextSerial + 1⟩

/-- The node that is made of a text without another call. -/
inductive Makes (text : List Char) (serial : Nat) : Node → Prop
  | field (noParenthesis : text.getLast? ≠ some ')') (noBracket : text.getLast? ≠ some ']')
      (identifier : Text.isIdentifierList text = true) :
      Makes text serial (.field serial (String.ofList text))
  | method {name : List Char} {keys : List (List Char)} (last : text.getLast? = some ')')
      (read : Segment.readMethod text = .ok (name, keys)) :
      Makes text serial (.method serial (String.ofList text) (String.ofList name)
        (keys.map String.ofList))
  | element {index : Nat} (last : text.getLast? = some ']')
      (read : Segment.readArray text = .ok ([], index)) :
      Makes text serial (.array serial (String.ofList text) index none)

/-- Why a text is refused without another call. -/
inductive Refuses (text : List Char) : ExpressionFault → Prop
  | field (noParenthesis : text.getLast? ≠ some ')') (noBracket : text.getLast? ≠ some ']')
      (noIdentifier : Text.isIdentifierList text = false) : Refuses text .fieldName
  | method {reason : ExpressionFault} (last : text.getLast? = some ')')
      (read : Segment.readMethod text = .error reason) : Refuses text reason
  | index {reason : ExpressionFault} (last : text.getLast? = some ']')
      (read : Segment.readArray text = .error reason) : Refuses text reason

/-- A call on a table for a text: how many calls are made for it, itself included, what comes of it
and what the table is afterwards.  The call for an inner text is made on the table itself, and what
it has entered is there whether or not it fails. -/
inductive Answers : NodeTable → List Char → Nat → Except Fault Node → NodeTable → Prop
  | found {table : NodeTable} {text : List Char} {node : Node}
      (present : Entries.get? table.entries (String.ofList text) = some node) :
      Answers table text 1 (.ok node) table
  | refused {table : NodeTable} {text : List Char} {reason : ExpressionFault}
      (absent : Entries.get? table.entries (String.ofList text) = none)
      (refuses : Refuses text reason) :
      Answers table text 1 (.error (fault text reason)) table
  | made {table : NodeTable} {text : List Char} {node : Node}
      (absent : Entries.get? table.entries (String.ofList text) = none)
      (makes : Makes text table.nextSerial node) :
      Answers table text 1 (.ok node) (table.set text node)
  | innerRefused {table later : NodeTable} {text inner : List Char} {index calls : Nat}
      {fault : Fault} (absent : Entries.get? table.entries (String.ofList text) = none)
      (last : text.getLast? = some ']') (read : Segment.readArray text = .ok (inner, index))
      (something : inner ≠ []) (answers : Answers table inner calls (.error fault) later) :
      Answers table text (calls + 1) (.error fault) later
  | indexed {table later : NodeTable} {text inner : List Char} {index calls : Nat} {node : Node}
      (absent : Entries.get? table.entries (String.ofList text) = none)
      (last : text.getLast? = some ']') (read : Segment.readArray text = .ok (inner, index))
      (something : inner ≠ []) (answers : Answers table inner calls (.ok node) later) :
      Answers table text (calls + 1)
        (.ok (.array later.nextSerial (String.ofList text) index (some node)))
        (later.set text (.array later.nextSerial (String.ofList text) index (some node)))

/-- What a table becomes by calls, of which any may fail. -/
inductive Becomes (start : NodeTable) : NodeTable → Prop
  | start : Becomes start start
  | called {table later : NodeTable} {text : List Char} {calls : Nat}
      {outcome : Except Fault Node} : Becomes start table →
      Answers table text calls outcome later → Becomes start later

section Answers

variable {table later : NodeTable} {text inner : List Char} {node : Node} {calls index : Nat}
  {outcome : Except Fault Node}

/-! ## Calls end -/

theorem exists_inside_of_readArray (read : Segment.readArray text = .ok (inner, index)) :
    ∃ inside, '[' ∉ inside ∧ text = inner ++ '[' :: inside := by
  unfold Segment.readArray at read
  split at read
  · cases read
  · rename_i before inside found
    dsimp only at read
    split at read
    · cases read
      exact ⟨inside, splitAtLastBracket_eq_some.1 found⟩
    · cases read

/-- Before its last index a text has one opening bracket less. -/
theorem count_of_readArray (read : Segment.readArray text = .ok (inner, index)) :
    text.count '[' = inner.count '[' + 1 := by
  obtain ⟨inside, absent, rfl⟩ := exists_inside_of_readArray read
  rw [List.count_append, List.count_cons_self, List.count_eq_zero.2 absent]

/-- A call ends if the call for what comes before the last index does. -/
theorem exists_answers_of_inner
    (absent : Entries.get? table.entries (String.ofList text) = none)
    (last : text.getLast? = some ']') (read : Segment.readArray text = .ok (inner, index))
    (something : inner ≠ [])
    (ends : ∃ calls outcome later, Answers table inner calls outcome later ∧
      calls ≤ inner.count '[' + 1) :
    ∃ calls outcome later, Answers table text calls outcome later ∧
      calls ≤ text.count '[' + 1 := by
  obtain ⟨calls, outcome, later, answers, few⟩ := ends
  rw [count_of_readArray read]
  cases outcome with
  | error fault => exact ⟨_, _, _, .innerRefused absent last read something answers, by omega⟩
  | ok node => exact ⟨_, _, _, .indexed absent last read something answers, by omega⟩

/-- Every call ends, after one call for every opening bracket and one more at most. -/
theorem exists_answers (table : NodeTable) (text : List Char) :
    ∃ calls outcome later, Answers table text calls outcome later ∧
      calls ≤ text.count '[' + 1 := by
  fun_induction NodeTable.node table text with
  | case1 text name node found => exact ⟨1, _, _, .found found, by omega⟩
  | case2 text name absent last reason read =>
      exact ⟨1, _, _, .refused absent (.method last read), by omega⟩
  | case3 text name absent last method keys read =>
      exact ⟨1, _, _, .made absent (.method last read), by omega⟩
  | case4 text name absent last reason read =>
      exact ⟨1, _, _, .refused absent (.index last read), by omega⟩
  | case5 text name absent last inner index read shorter nothing =>
      rw [List.isEmpty_iff] at nothing
      exact ⟨1, _, _, .made absent (.element last (nothing ▸ read)), by omega⟩
  | case6 text name absent last inner index read shorter something reason failed ends =>
      exact exists_answers_of_inner absent last read (by rwa [List.isEmpty_iff] at something) ends
  | case7 text name absent last inner index read shorter something node later made ends =>
      exact exists_answers_of_inner absent last read (by rwa [List.isEmpty_iff] at something) ends
  | case8 text name absent identifier noParenthesis noBracket =>
      exact ⟨1, _, _, .made absent (.field noParenthesis noBracket identifier), by omega⟩
  | case9 text name absent noIdentifier noParenthesis noBracket =>
      rw [Bool.not_eq_true] at noIdentifier
      exact ⟨1, _, _, .refused absent (.field noParenthesis noBracket noIdentifier), by omega⟩

/-! ## What calls come to -/

theorem node_of_found (present : Entries.get? table.entries (String.ofList text) = some node) :
    table.node text = .ok (node, table) := by
  rw [NodeTable.node]
  simp only [present]

theorem set_of_absent (absent : Entries.get? table.entries (String.ofList text) = none)
    (node : Node) : table.set text node = (table.enter (String.ofList text) node).2 := by
  rw [set, Entries.put_of_not_mem (Entries.get?_eq_none_iff.1 absent), enter]

theorem node_of_refuses {reason : ExpressionFault}
    (absent : Entries.get? table.entries (String.ofList text) = none)
    (refuses : Refuses text reason) : table.node text = .error (fault text reason) := by
  cases refuses with
  | field noParenthesis noBracket noIdentifier =>
      rw [node_of_word absent noParenthesis noBracket, noIdentifier]
      rfl
  | method last read =>
      rw [NodeTable.node]
      simp only [absent, last, read]
  | index last read => exact node_of_readArray_error absent last read

theorem node_of_makes (absent : Entries.get? table.entries (String.ofList text) = none)
    (makes : Makes text table.nextSerial node) :
    table.node text = .ok (table.enter (String.ofList text) node) := by
  cases makes with
  | field noParenthesis noBracket identifier =>
      rw [node_of_word absent noParenthesis noBracket, if_pos identifier]
  | method last read =>
      rw [NodeTable.node]
      simp only [absent, last, read]
  | element last read => exact node_of_readArray_nil absent last read

/-- A text is longer than what comes before its last index, so the call for that does not enter
it. -/
theorem absent_of_inner (absent : Entries.get? table.entries (String.ofList text) = none)
    (read : Segment.readArray text = .ok (inner, index))
    (made : table.node inner = .ok (node, later)) :
    Entries.get? later.entries (String.ofList text) = none := by
  rw [Option.eq_none_iff_forall_ne_some]
  intro other found
  rcases (extends_node made).1.short _ _ found with present | short
  · rw [absent] at present
    cases present
  · rw [String.toList_ofList] at short
    exact absurd (Segment.readArray_length read) (Nat.not_lt.2 short)

/-- What comes of a call step by step is what the table says in one go, and what the call leaves
if it is answered is what the table says too. -/
theorem node_of_answers (answers : Answers table text calls outcome later) :
    table.node text = outcome.map (·, later) := by
  induction answers with
  | found present => exact node_of_found present
  | refused absent refuses => exact node_of_refuses absent refuses
  | made absent makes =>
      rw [node_of_makes absent makes, set_of_absent absent]
      rfl
  | innerRefused absent last read something _ inductionHypothesis =>
      rw [node_of_readArray absent last read something, inductionHypothesis]
      rfl
  | indexed absent last read something _ inductionHypothesis =>
      rw [node_of_readArray absent last read something, inductionHypothesis,
        set_of_absent (absent_of_inner absent read inductionHypothesis)]
      rfl

/-- A call that is refused leaves the table as it was. -/
theorem unchanged_of_refused {fault : Fault}
    (answers : Answers table text calls (.error fault) later) : later = table := by
  -- By induction on the calls: a node is only entered by a call that is answered.
  generalize isRefused : (Except.error fault : Except Fault Node) = outcome at answers
  induction answers with
  | found => cases isRefused
  | refused => rfl
  | made => cases isRefused
  | innerRefused _ _ _ _ _ inductionHypothesis => exact inductionHypothesis isRefused
  | indexed => cases isRefused

end Answers

/-! ## Closed tables -/

/-- The inner node of an array node is the one that the table has for what comes before the last
opening bracket, and there is none if nothing does. -/
def Nested (table : NodeTable) : Node → Prop
  | .array _ text _ inner => ∃ before inside, text.toList = before ++ '[' :: inside ∧
      '[' ∉ inside ∧ (before = [] → inner = none) ∧
      (before ≠ [] → ∃ node, inner = some node ∧
        Entries.get? table.entries (String.ofList before) = some node)
  | _ => True

/-- In a closed table every node has the text that it is entered under, and the inner nodes are
nodes of the table.  No text is entered twice, and no two nodes have the same number. -/
structure Closed (table : NodeTable) : Prop where
  named : ∀ text node, Entries.get? table.entries text = some node → node.text = text
  nested : ∀ text node, Entries.get? table.entries text = some node → table.Nested node
  distinct : (table.entries.map Prod.fst).Nodup
  numbered : (table.entries.map (·.2.serial)).Nodup
  counted : ∀ entry ∈ table.entries, entry.2.serial < table.nextSerial

theorem closed_of_entries_nil {table : NodeTable} (nothing : table.entries = []) :
    table.Closed where
  named := by simp [nothing]
  nested := by simp [nothing]
  distinct := by simp [nothing]
  numbered := by simp [nothing]
  counted := by simp [nothing]

section Closed

variable {table later : NodeTable} {text inner : List Char} {node : Node} {calls index : Nat}
  {outcome : Except Fault Node}

theorem get?_set (name : String) : Entries.get? (table.set text node).entries name =
    if name = String.ofList text then some node else Entries.get? table.entries name :=
  Entries.get?_put ..

theorem Nested.set {other : Node} (nested : table.Nested other)
    (absent : Entries.get? table.entries (String.ofList text) = none) (node : Node) :
    (table.set text node).Nested other := by
  cases other with
  | field | method => trivial
  | array serial ofText index inner =>
      obtain ⟨before, inside, same, noBracket, alone, isInner⟩ := nested
      refine ⟨before, inside, same, noBracket, alone, fun something => ?_⟩
      obtain ⟨node, isNode, found⟩ := isInner something
      refine ⟨node, isNode, ?_⟩
      rw [get?_set, if_neg, found]
      rintro sameText
      rw [sameText, absent] at found
      cases found

/-- The next number is no node's yet. -/
theorem Closed.nextSerial_not_mem (closed : table.Closed) :
    table.nextSerial ∉ table.entries.map (·.2.serial) := by
  intro member
  obtain ⟨entry, isEntry, same⟩ := List.mem_map.1 member
  exact absurd same (closed.counted entry isEntry).ne

/-- A closed table stays closed when a node is entered for a text that it does not have. -/
theorem Closed.set (closed : table.Closed)
    (absent : Entries.get? table.entries (String.ofList text) = none)
    (named : node.text = String.ofList text) (numbered : node.serial = table.nextSerial)
    (nested : table.Nested node) : (table.set text node).Closed := by
  have fresh := Entries.get?_eq_none_iff.1 absent
  have entries : (table.set text node).entries = table.entries ++ [(String.ofList text, node)] :=
    Entries.put_of_not_mem fresh node
  refine ⟨fun name other found => ?_, fun name other found => ?_, ?_, ?_, ?_⟩
  · rw [get?_set] at found
    split at found
    · rename_i same
      cases found
      rw [named, same]
    · exact closed.named name other found
  · rw [get?_set] at found
    split at found
    · cases found
      exact nested.set absent node
    · exact (closed.nested name other found).set absent node
  · rw [entries, List.map_append, List.map_singleton, ← List.concat_eq_append]
    exact closed.distinct.concat fresh
  · rw [entries, List.map_append, List.map_singleton, ← List.concat_eq_append]
    exact closed.numbered.concat (numbered ▸ closed.nextSerial_not_mem)
  · intro entry member
    rw [entries] at member
    rcases List.mem_append.1 member with earlier | isNew
    · exact Nat.lt_succ_of_lt (closed.counted entry earlier)
    · obtain rfl := List.mem_singleton.1 isNew
      rw [numbered]
      exact Nat.lt_succ_self _

/-- What comes before the last opening bracket of an index that a closed table has is there too. -/
theorem Closed.present_before (closed : table.Closed) (indexed : node.form.indices ≠ [])
    (found : Entries.get? table.entries (String.ofList text) = some node)
    {before inside : List Char} (noBracket : '[' ∉ inside) (same : text = before ++ '[' :: inside) :
    before = [] ∨ ∃ other, Entries.get? table.entries (String.ofList before) = some other := by
  have named := closed.named _ _ found
  have nested := closed.nested _ _ found
  cases node with
  | field | method => exact absurd rfl indexed
  | array serial ofText index inner =>
      obtain ⟨_, _, sameNested, noBracketNested, _, isInner⟩ := nested
      rw [show ofText = String.ofList text from named, String.toList_ofList] at sameNested
      have split := splitAtLastBracket_eq_some.2 ⟨noBracket, same⟩
      rw [splitAtLastBracket_eq_some.2 ⟨noBracketNested, sameNested⟩] at split
      cases split
      by_cases nothing : before = []
      · exact .inl nothing
      · obtain ⟨other, _, present⟩ := isInner nothing
        exact .inr ⟨other, present⟩

theorem Makes.named {serial : Nat} (makes : Makes text serial node) :
    node.text = String.ofList text := by
  cases makes <;> rfl

theorem Makes.serial {serial : Nat} (makes : Makes text serial node) : node.serial = serial := by
  cases makes <;> rfl

theorem Makes.nested {serial : Nat} (makes : Makes text serial node) : table.Nested node := by
  cases makes with
  | field | method => trivial
  | element last read =>
      obtain ⟨inside, noBracket, same⟩ := exists_inside_of_readArray read
      exact ⟨[], inside, by rw [String.toList_ofList, same], noBracket, fun _ => rfl,
        fun something => absurd rfl something⟩

theorem found_of_answers (answers : Answers table text calls (.ok node) later) :
    Entries.get? later.entries (String.ofList text) = some node :=
  (extends_node (node_of_answers answers)).2

/-- Every call keeps a table closed: what it enters is new, and its inner node is there already. -/
theorem closed_of_answers (closed : table.Closed)
    (answers : Answers table text calls outcome later) : later.Closed := by
  induction answers with
  | found | refused => exact closed
  | made absent makes => exact closed.set absent makes.named makes.serial makes.nested
  | innerRefused _ _ _ _ _ inductionHypothesis => exact inductionHypothesis
  | indexed absent last read something answers inductionHypothesis =>
      refine inductionHypothesis.set
        (absent_of_inner absent read (node_of_answers answers)) rfl rfl ?_
      obtain ⟨inside, noBracket, same⟩ := exists_inside_of_readArray read
      exact ⟨_, inside, by rw [String.toList_ofList, same], noBracket,
        fun nothing => absurd nothing something, fun _ => ⟨_, rfl, found_of_answers answers⟩⟩

theorem formed_of_answers (formed : table.Formed)
    (answers : Answers table text calls outcome later) : later.Formed := by
  cases outcome with
  | error fault => exact unchanged_of_refused answers ▸ formed
  | ok node =>
      have interned := interned_node formed text
      rw [node_of_answers answers] at interned
      exact interned.1

theorem keeps_of_answers (answers : Answers table text calls outcome later) {name : String}
    {other : Node} (found : Entries.get? table.entries name = some other) :
    Entries.get? later.entries name = some other := by
  cases outcome with
  | error fault => exact unchanged_of_refused answers ▸ found
  | ok node => exact (extends_node (node_of_answers answers)).1.keeps name other found

theorem answers_of_found {other : Node}
    (present : Entries.get? table.entries (String.ofList text) = some other)
    (answers : Answers table text calls outcome later) : outcome = .ok other ∧ later = table := by
  have same := (node_of_answers answers).symm.trans (node_of_found present)
  cases outcome with
  | error fault => cases same
  | ok node =>
      cases same
      exact ⟨rfl, rfl⟩

end Closed

section Becomes

variable {start table : NodeTable}

theorem Becomes.closed (becomes : Becomes start table) (closed : start.Closed) : table.Closed := by
  induction becomes with
  | start => exact closed
  | called _ answers inductionHypothesis => exact closed_of_answers inductionHypothesis answers

theorem Becomes.formed (becomes : Becomes start table) (formed : start.Formed) : table.Formed := by
  induction becomes with
  | start => exact formed
  | called _ answers inductionHypothesis => exact formed_of_answers inductionHypothesis answers

theorem Becomes.keeps (becomes : Becomes start table) {name : String} {node : Node}
    (found : Entries.get? start.entries name = some node) :
    Entries.get? table.entries name = some node := by
  induction becomes with
  | start => exact found
  | called _ answers inductionHypothesis => exact keeps_of_answers answers inductionHypothesis

end Becomes

/-! ## What is entered -/

/-- A text is the start of a segment and, after it, its indices. -/
structure Stacks (form : Form) (start : List Char) (suffixes : List (List Char))
    (text : List Char) : Prop where
  base : form.base.Spells start
  indices : List.Forall₂ IndexSpells form.indices suffixes
  joined : text = start ++ suffixes.flatten

/-- The texts on the way from the start of a segment to the whole of it, one for the start, if it
has one, and one for each index. -/
def stages (start : List Char) (suffixes : List (List Char)) : List (List Char) :=
  (suffixes.inits.map (start ++ ·.flatten)).filter (· ≠ [])

/-- The texts that a table has no node for. -/
def missing (table : NodeTable) (texts : List (List Char)) : List String :=
  (texts.map String.ofList).filter (· ∉ table.entries.map Prod.fst)

section Stages

variable {table later : NodeTable} {text inner start : List Char} {suffixes : List (List Char)}
  {form : Form} {calls index : Nat} {node : Node}

theorem stages_nil (start : List Char) : stages start [] = if start = [] then [] else [start] := by
  by_cases nothing : start = [] <;> simp [stages, nothing]

theorem stages_concat {suffix : List Char} (something : suffix ≠ []) :
    stages start (suffixes ++ [suffix]) =
      stages start suffixes ++ [start ++ (suffixes ++ [suffix]).flatten] := by
  have notNil : start ++ (suffixes ++ [suffix]).flatten ≠ [] := by simp [something]
  rw [stages, List.inits_append, List.map_append, List.filter_append, stages]
  congr 1
  simpa using notNil

theorem stages_of_joined_nil (nothing : start ++ suffixes.flatten = []) :
    stages start suffixes = [] := by
  rw [stages, List.filter_eq_nil_iff, List.forall_mem_map]
  intro taken isInit
  obtain ⟨rest, rfl⟩ := (List.mem_inits ..).1 isInit
  rw [List.flatten_append, ← List.append_assoc] at nothing
  simpa using (List.append_eq_nil_iff.1 nothing).1

theorem missing_concat (texts : List (List Char))
    (absent : Entries.get? table.entries (String.ofList text) = none) :
    table.missing (texts ++ [text]) = table.missing texts ++ [String.ofList text] := by
  rw [missing, List.map_append, List.filter_append, missing]
  congr 1
  simpa using Entries.get?_eq_none_iff.1 absent

/-! ## The last index -/

/-- A segment without a bracket at its end has no indices. -/
theorem Stacks.of_last (stacked : Stacks form start suffixes text)
    (noBracket : text.getLast? ≠ some ']') : suffixes = [] ∧ text = start := by
  obtain ⟨_, indices, rfl⟩ := stacked
  rcases List.eq_nil_or_concat form.indices with nothing | ⟨earlier, index, isConcat⟩
  · rw [nothing] at indices
    cases indices
    exact ⟨rfl, by simp⟩
  · rw [isConcat, List.concat_eq_append] at indices
    obtain ⟨before, suffix, _, spells, rfl⟩ := exists_concat_of_forall₂ indices
    rw [List.flatten_concat, ← List.append_assoc,
      List.getLast?_append_of_ne_nil _ spells.ne_nil] at noBracket
    exact absurd spells.getLast? noBracket

/-- The index that is read at the end of a segment is its last one, and what comes before is the
segment without it. -/
theorem Stacks.of_readArray (stacked : Stacks form start suffixes text)
    (last : text.getLast? = some ']') (read : Segment.readArray text = .ok (inner, index)) :
    ∃ indices before suffix, form.indices = indices ++ [index] ∧ suffixes = before ++ [suffix] ∧
      suffix ≠ [] ∧ Stacks ⟨form.base, indices⟩ start before inner := by
  obtain ⟨base, indices, rfl⟩ := stacked
  rcases List.eq_nil_or_concat form.indices with nothing | ⟨earlier, final, isConcat⟩
  · rw [nothing] at indices
    cases indices
    rw [List.flatten_nil, List.append_nil] at last
    -- What a segment starts with does not end in a bracket.
    by_cases isNothing : form.base = .nothing
    · rw [isNothing] at base
      cases base
      cases last
    · rcases base.getLast? isNothing with ⟨name, _, identifier, rfl⟩ | ⟨_, _, _, other⟩
      · exact absurd last (IsMark.getLast?_ne (by decide) identifier)
      · rw [last] at other
        cases other
  · rw [isConcat, List.concat_eq_append] at indices
    obtain ⟨before, suffix, allBefore, spells, rfl⟩ := exists_concat_of_forall₂ indices
    have readAgain : Segment.readArray (start ++ (before ++ [suffix]).flatten) =
        .ok (start ++ before.flatten, final) :=
      (readArray_ok_iff last).2 ⟨suffix, spells, by rw [List.flatten_concat, List.append_assoc]⟩
    rw [read] at readAgain
    cases readAgain
    exact ⟨earlier, before, suffix, by rw [isConcat, List.concat_eq_append], rfl, spells.ne_nil,
      ⟨base, allBefore, rfl⟩⟩

theorem Stacks.spells (stacked : Stacks form start suffixes text) (something : text ≠ []) :
    form.Spells text := by
  refine ⟨start, suffixes, stacked.base, stacked.indices, fun isNothing none => ?_, stacked.joined⟩
  obtain ⟨base, indices, joined⟩ := stacked
  rw [isNothing] at base
  rw [none] at indices
  cases base
  cases indices
  exact something joined

theorem Stacks.start_eq_nil_iff (stacked : Stacks form start suffixes text) :
    start = [] ↔ form.base = .nothing := by
  constructor
  · rintro rfl
    by_contra something
    exact (Form.spells_base.2 ⟨stacked.base, something⟩).ne_nil rfl
  · intro isNothing
    have base := stacked.base
    rw [isNothing] at base
    cases base
    rfl

theorem length_stages {indices : List Nat} (spell : List.Forall₂ IndexSpells indices suffixes) :
    (stages start suffixes).length = indices.length + if start = [] then 0 else 1 := by
  induction indices using List.reverseRecOn generalizing suffixes with
  | nil =>
      cases spell
      rw [stages_nil]
      split <;> rfl
  | append_singleton indices index inductionHypothesis =>
      obtain ⟨before, suffix, spellBefore, spells, rfl⟩ := exists_concat_of_forall₂ spell
      rw [stages_concat spells.ne_nil, List.length_append, List.length_append,
        inductionHypothesis spellBefore, List.length_singleton, List.length_singleton]
      omega

/-! ## Missing texts -/

section Last

variable {before : List (List Char)} {suffix : List Char}
  (stacked : Stacks form start (before ++ [suffix]) text) (spells : IndexSpells index suffix)

include stacked

theorem Stacks.joined_last : text = start ++ before.flatten ++ suffix := by
  rw [stacked.joined, List.flatten_concat, List.append_assoc]

include spells

theorem Stacks.ne_nil_of_last : text ≠ [] := by
  rw [stacked.joined_last]
  exact fun nothing => spells.ne_nil (List.append_eq_nil_iff.1 nothing).2

/-- In a closed table that has a segment, the segment without its last index is there. -/
theorem Stacks.present_before (closed : table.Closed) (formed : table.Formed)
    (indexed : form.indices ≠ [])
    (found : Entries.get? table.entries (String.ofList text) = some node) :
    start ++ before.flatten = [] ∨ ∃ inner,
      Entries.get? table.entries (String.ofList (start ++ before.flatten)) = some inner := by
  have spellsText := (formed _ _ found).2
  rw [String.toList_ofList] at spellsText
  have sameForm := spellsText.unique (stacked.spells (stacked.ne_nil_of_last spells))
  have last : text.getLast? = some ']' := by
    rw [stacked.joined_last, List.getLast?_append_of_ne_nil _ spells.ne_nil, spells.getLast?]
  obtain ⟨inside, noBracket, same⟩ := exists_inside_of_readArray
    ((readArray_ok_iff last).2 ⟨suffix, spells, stacked.joined_last⟩)
  exact closed.present_before (sameForm ▸ indexed) found noBracket same

end Last

/-- In a closed table that has a segment, every text on the way to it is there. -/
theorem Stacks.present (closed : table.Closed) (formed : table.Formed) {base : Base}
    {indices : List Nat} (stacked : Stacks ⟨base, indices⟩ start suffixes text)
    (present : text = [] ∨ ∃ node, Entries.get? table.entries (String.ofList text) = some node) :
    ∀ stage ∈ stages start suffixes,
      ∃ node, Entries.get? table.entries (String.ofList stage) = some node := by
  -- By induction from the last index to the first one.
  induction indices using List.reverseRecOn generalizing suffixes text with
  | nil =>
      obtain ⟨_, all, rfl⟩ := stacked
      cases all
      rw [stages_nil]
      split
      · simp
      · rename_i something
        rw [List.flatten_nil, List.append_nil] at present
        simpa using present.resolve_left something
  | append_singleton indices index inductionHypothesis =>
      obtain ⟨before, suffix, allBefore, spells, rfl⟩ := exists_concat_of_forall₂ stacked.indices
      obtain ⟨node, found⟩ := present.resolve_left (stacked.ne_nil_of_last spells)
      have presentBefore := stacked.present_before spells closed formed
        (List.concat_ne_nil index indices) found
      rw [stages_concat spells.ne_nil]
      intro stage member
      rcases List.mem_append.1 member with earlier | isLast
      · exact inductionHypothesis ⟨stacked.base, allBefore, rfl⟩ presentBefore stage earlier
      · rw [List.mem_singleton.1 isLast, ← stacked.joined]
        exact ⟨node, found⟩

/-- What is made without another call is the first text on the way. -/
theorem Stacks.stages_of_makes {serial : Nat} (stacked : Stacks form start suffixes text)
    (makes : Makes text serial node) : stages start suffixes = [text] := by
  cases makes with
  | field _ noBracket identifier =>
      obtain ⟨rfl, rfl⟩ := stacked.of_last noBracket
      rw [stages_nil, if_neg (Text.ne_nil_of_isIdentifierList identifier)]
  | method last _ =>
      obtain ⟨rfl, rfl⟩ := stacked.of_last (by simp [last])
      rw [stages_nil, if_neg]
      rintro rfl
      cases last
  | element last read =>
      obtain ⟨_, before, suffix, _, rfl, something, inner⟩ := stacked.of_readArray last read
      rw [stages_concat something, stages_of_joined_nil inner.joined.symm, stacked.joined]
      rfl

/-- An answered call enters the texts on the way to the segment that were missing, in this order,
and nothing else. -/
theorem Stacks.entered (closed : table.Closed) (formed : table.Formed)
    (answers : Answers table text calls (.ok node) later)
    (stacked : Stacks form start suffixes text) :
    ∃ new, later.entries = table.entries ++ new ∧
      new.map Prod.fst = table.missing (stages start suffixes) := by
  -- By induction on the calls, for every segment that the text may be.
  generalize isAnswered : (Except.ok node : Except Fault Node) = outcome at answers
  induction answers generalizing form start suffixes node with
  | found present =>
      have allPresent := stacked.present closed formed (.inr ⟨_, present⟩)
      refine ⟨[], by simp, ?_⟩
      rw [missing, List.map_nil, eq_comm, List.filter_eq_nil_iff, List.forall_mem_map]
      intro stage member
      obtain ⟨other, found⟩ := allPresent stage member
      simpa using List.mem_map_of_mem (f := Prod.fst) (Entries.mem_of_get? found)
  | refused => cases isAnswered
  | made absent makes =>
      refine ⟨_, Entries.put_of_not_mem (Entries.get?_eq_none_iff.1 absent) _, ?_⟩
      rw [stacked.stages_of_makes makes]
      exact (missing_concat [] absent).symm
  | innerRefused => cases isAnswered
  | @indexed middle text inner index _ innerNode absent last read something answers
      inductionHypothesis =>
      obtain ⟨_, before, suffix, _, rfl, notNil, stackedInner⟩ := stacked.of_readArray last read
      obtain ⟨new, entries, keys⟩ := inductionHypothesis stackedInner rfl
      have stillAbsent := absent_of_inner absent read (node_of_answers answers)
      refine ⟨new ++ [(String.ofList text,
        .array middle.nextSerial (String.ofList text) index (some innerNode))], ?_, ?_⟩
      · rw [← List.append_assoc, ← entries]
        exact Entries.put_of_not_mem (Entries.get?_eq_none_iff.1 stillAbsent) _
      · rw [stages_concat notNil, ← stacked.joined, missing_concat _ absent, List.map_append, keys]
        rfl

end Stages

/-- In a table that a table without nodes has become by calls, answered or refused: every node has
the text that it is entered under, and the inner nodes are those of the table.  Every call ends.
One that is refused leaves the table as it was.  One that is answered enters the texts on the way to
its segment that were missing, one for each index and one for what comes before them, if anything
does; from then on the answer is the same node, and changes nothing. -/
theorem nodes_are_made_once {start table : NodeTable} (new : start.entries = [])
    (becomes : Becomes start table) (text : List Char) :
    table.Closed ∧
      (∃ calls outcome later, Answers table text calls outcome later ∧
        calls ≤ text.count '[' + 1) ∧
      (∀ calls fault later, Answers table text calls (.error fault) later →
        later = table ∧ table.node text = .error fault) ∧
      ∀ calls node later, Answers table text calls (.ok node) later →
        table.node text = .ok (node, later) ∧
        (∀ further, Becomes later further →
          ∀ again outcome final, Answers further text again outcome final →
            outcome = .ok node ∧ final = further) ∧
        (∃ first suffixes, Stacks node.form first suffixes text) ∧
        ∀ form first suffixes, Stacks form first suffixes text →
          (stages first suffixes).length =
            form.indices.length + (if form.base = .nothing then 0 else 1) ∧
          ∃ added, later.entries = table.entries ++ added ∧
            added.map Prod.fst = table.missing (stages first suffixes) := by
  have closed := becomes.closed (closed_of_entries_nil new)
  have formed := becomes.formed (formed_of_entries_nil new)
  refine ⟨closed, exists_answers table text,
    fun calls fault later answers => ⟨unchanged_of_refused answers, node_of_answers answers⟩,
    fun calls node later answers => ⟨node_of_answers answers, ?_, ?_, ?_⟩⟩
  · intro further onward again outcome final answersAgain
    exact answers_of_found (onward.keeps (found_of_answers answers)) answersAgain
  · have interned := interned_node formed text
    rw [node_of_answers answers] at interned
    obtain ⟨first, suffixes, base, indices, _, joined⟩ := interned.2.2
    exact ⟨first, suffixes, base, indices, joined⟩
  · intro form first suffixes stacked
    refine ⟨?_, stacked.entered closed formed answers⟩
    rw [length_stages stacked.indices]
    simp only [stacked.start_eq_nil_iff]

theorem indexSpells_digit {digit : Char} {index : Nat}
    (isDigit : Text.isDigitList [digit] = true) (value : Text.digitsValue [digit] = index)
    (small : index ≤ greatestIndex) : IndexSpells index ['[', digit, ']'] :=
  ⟨[digit], [digit], isDigit, value, small, ⟨[], [], by simp [Text.Blanks], by simp [Text.Blanks],
    rfl⟩, rfl⟩

/-- After a refused call for one chain of indices and an answered call for another one, a call for a
longer chain enters the two texts that were missing, and names the node that was there. -/
theorem chain_is_completed :
    ∃ table node later, Becomes empty table ∧ table.entries.map Prod.fst = ["a", "a[0]"] ∧
      table.node "a[0][1][2]".toList = .ok (node, later) ∧ later.Closed ∧
      later.entries.map Prod.fst = ["a", "a[0]", "a[0][1]", "a[0][1][2]"] := by
  have refused : Answers empty "a[x][0]".toList 2
      (.error (fault "a[x]".toList .index)) empty :=
    .innerRefused rfl rfl rfl (by decide) (.refused rfl (.index rfl rfl))
  have answered : ∃ node table, Answers empty "a[0]".toList 2 (.ok node) table ∧
      table.entries.map Prod.fst = ["a", "a[0]"] ∧
      Entries.get? table.entries "a[0]" = some node ∧
      Entries.get? table.entries "a[0][1]" = none ∧
      Entries.get? table.entries "a[0][1][2]" = none :=
    ⟨_, _, .indexed rfl rfl rfl (by decide) (.made rfl (.field (by decide) (by decide) rfl)), rfl,
      rfl, rfl, rfl⟩
  obtain ⟨shorter, table, answered, keys, found, absentInner, absent⟩ := answered
  have becomes : Becomes empty table := .called (.called .start refused) answered
  obtain ⟨calls, node, later, answers⟩ : ∃ calls node later,
      Answers table "a[0][1][2]".toList calls (.ok node) later :=
    ⟨_, _, _, .indexed absent rfl rfl (by decide)
      (.indexed absentInner rfl rfl (by decide) (.found found))⟩
  obtain ⟨_, _, _, answered⟩ := nodes_are_made_once rfl becomes "a[0][1][2]".toList
  obtain ⟨same, _, _, entered⟩ := answered calls node later answers
  have stacked : Stacks ⟨.field "a", [0, 1, 2]⟩ ['a'] ["[0]".toList, "[1]".toList, "[2]".toList]
      "a[0][1][2]".toList :=
    ⟨.field rfl, .cons (indexSpells_digit rfl rfl (by decide)) <|
      .cons (indexSpells_digit rfl rfl (by decide)) <|
        .cons (indexSpells_digit rfl rfl (by decide)) .nil, by decide⟩
  obtain ⟨_, added, entries, isAdded⟩ := entered _ _ _ stacked
  obtain ⟨closed, _⟩ := nodes_are_made_once rfl (becomes.called answers) []
  refine ⟨table, node, later, becomes, keys, same, closed, ?_⟩
  rw [entries, List.map_append, isAdded, missing, keys]
  decide

end ObjectPath.NodeTable
