import ObjectPath.Path.Text
import ObjectPath.Proofs.Grammar

/-!
# Paths in a text

A path is segments with dots between them.  Dots, brackets and parentheses are the only
characters at which the splitter does anything, and in what spells a segment each bracket is
closed again.  So the text of a path is split into what spells its segments, and what a text
is split into gives the text back.
-/

namespace ObjectPath.PathText

/-- What spells the segments of a path: the texts of the segments with dots between them. -/
def Spells (segments : List Form) (texts : List (List Char)) (text : List Char) : Prop :=
  segments ≠ [] ∧ List.Forall₂ Form.Spells segments texts ∧ text = ['.'].intercalate texts

/-! ## Depths -/

/-- The splitter reads a text without a new segment and gets from one depth to another. -/
def Passes (before : Nat) (text : List Char) (after : Nat) : Prop :=
  ∀ rest, splitFrom before (text ++ rest) =
    text.foldr splitFrom.continueFirst (splitFrom after rest)

theorem Passes.nil (depth : Nat) : Passes depth [] depth := fun _ => rfl

theorem Passes.append {before between after : Nat} {first second : List Char}
    (start : Passes before first between) (finish : Passes between second after) :
    Passes before (first ++ second) after := by
  intro rest
  rw [List.append_assoc, start, finish, List.foldr_append]

theorem passes_open {character : Char} (isOpen : opens character = true) (depth : Nat) :
    Passes depth [character] (depth + 1) := by
  intro rest
  rw [List.cons_append, List.nil_append, splitFrom.eq_def]
  exact if_pos isOpen

theorem passes_close {character : Char} (notOpen : opens character = false)
    (isClose : closes character = true) (depth : Nat) :
    Passes (depth + 1) [character] depth := by
  intro rest
  rw [List.cons_append, List.nil_append, splitFrom.eq_def]
  dsimp only
  rw [notOpen, isClose]
  rfl

/-- The characters at which the splitter does anything. -/
def marks : List Char :=
  ['(', ')', '[', ']', '.']

/-- A text in which the splitter does nothing. -/
def Quiet (text : List Char) : Prop :=
  ∀ mark ∈ marks, mark ∉ text

theorem passes_of_quiet {text : List Char} (quiet : Quiet text) (depth : Nat) :
    Passes depth text depth := by
  induction text with
  | nil => exact Passes.nil depth
  | cons character rest inductionHypothesis =>
      have isNot : ∀ mark ∈ marks, character ≠ mark := by
        rintro mark member rfl
        exact quiet character member (List.mem_cons_self ..)
      have first : Passes depth [character] depth := by
        intro later
        simp only [marks, List.mem_cons, List.not_mem_nil, or_false, forall_eq_or_imp,
          forall_eq] at isNot
        simp [splitFrom, opens, closes, isNot]
      exact first.append (inductionHypothesis fun mark member isLater =>
        quiet mark member (List.mem_cons_of_mem character isLater))

/-! ## Segments close their brackets -/

theorem isMark_of_mem_marks : ∀ mark ∈ marks, IsMark mark ∧ mark ≠ ',' := by
  intro mark member
  have listed : mark = '(' ∨ mark = ')' ∨ mark = '[' ∨ mark = ']' ∨ mark = '.' := by
    simpa [marks] using member
  rcases listed with rfl | rfl | rfl | rfl | rfl <;> decide

theorem quiet_word {word : List Char}
    (continues : ∀ character ∈ word, Text.continuesIdentifier character = true) : Quiet word :=
  fun mark member => (isMark_of_mem_marks mark member).1.not_mem_word continues

theorem quiet_keys {keys : List String} {text : List Char} (spells : KeysSpell keys text) :
    Quiet text := fun mark member =>
  (isMark_of_mem_marks mark member).1.not_mem_keys spells (isMark_of_mem_marks mark member).2

theorem quiet_padded {word text : List Char} (padded : Text.Padded word text)
    (continues : ∀ character ∈ word, Text.continuesIdentifier character = true) : Quiet text :=
  fun mark member => (isMark_of_mem_marks mark member).1.not_mem_padded padded continues

/-- A quiet text between an opening and a closing character. -/
theorem passes_enclosed {first last : Char} {inside : List Char} (isOpen : opens first = true)
    (notOpen : opens last = false) (isClose : closes last = true) (quiet : Quiet inside)
    (depth : Nat) : Passes depth (first :: inside ++ [last]) depth :=
  ((passes_open isOpen depth).append (passes_of_quiet quiet (depth + 1))).append
    (passes_close notOpen isClose depth)

theorem passes_base {base : Base} {text : List Char} (spells : base.Spells text) :
    Passes 0 text 0 := by
  cases spells with
  | nothing => exact Passes.nil 0
  | field identifier =>
      exact passes_of_quiet (quiet_word (Text.continues_of_isIdentifierList identifier)) 0
  | method identifier keys =>
      rw [List.append_assoc]
      exact (passes_of_quiet (quiet_word (Text.continues_of_isIdentifierList identifier)) 0).append
        (passes_enclosed rfl rfl rfl (quiet_keys keys) 0)

theorem passes_index {index : Nat} {text : List Char} (spells : IndexSpells index text) :
    Passes 0 text 0 := by
  obtain ⟨digits, inside, areDigits, _, _, padded, rfl⟩ := spells
  exact passes_enclosed rfl rfl rfl
    (quiet_padded padded (Text.continues_of_isDigitList areDigits)) 0

theorem passes_indices {indices : List Nat} {suffixes : List (List Char)}
    (spell : List.Forall₂ IndexSpells indices suffixes) : Passes 0 suffixes.flatten 0 := by
  induction spell with
  | nil => exact Passes.nil 0
  | cons index _ inductionHypothesis => exact (passes_index index).append inductionHypothesis

theorem passes_segment {form : Form} {text : List Char} (spells : form.Spells text) :
    Passes 0 text 0 := by
  obtain ⟨start, suffixes, base, indices, _, rfl⟩ := spells
  exact (passes_base base).append (passes_indices indices)

/-- Every one of the texts that spell segments spells one. -/
theorem exists_spells_of_mem {segments : List Form} {texts : List (List Char)}
    (all : List.Forall₂ Form.Spells segments texts) {text : List Char} (member : text ∈ texts) :
    ∃ form : Form, form.Spells text := by
  induction all with
  | nil => cases member
  | cons spells _ inductionHypothesis =>
      rcases List.mem_cons.1 member with rfl | isLater
      · exact ⟨_, spells⟩
      · exact inductionHypothesis isLater

/-! ## Splitting and joining -/

theorem foldr_continueFirst (text segment : List Char) (segments : List (List Char)) :
    text.foldr splitFrom.continueFirst (.ok (segment :: segments)) =
      .ok ((text ++ segment) :: segments) := by
  induction text with
  | nil => rfl
  | cons character rest inductionHypothesis =>
      rw [List.foldr_cons, inductionHypothesis]
      rfl

theorem splitFrom_dot (rest : List Char) :
    splitFrom 0 ('.' :: rest) = (splitFrom 0 rest).map ([] :: ·) := rfl

/-- Texts that close their brackets are found between the dots. -/
theorem splitFrom_intercalate {texts : List (List Char)} (some : texts ≠ [])
    (pass : ∀ text ∈ texts, Passes 0 text 0) :
    splitFrom 0 (['.'].intercalate texts) = .ok texts := by
  induction texts with
  | nil => exact absurd rfl some
  | cons text texts inductionHypothesis =>
      have first := pass text (List.mem_cons_self ..)
      cases texts with
      | nil =>
          have whole := first []
          rw [List.append_nil] at whole
          rw [List.intercalate_singleton, whole]
          exact (foldr_continueFirst text [] []).trans (by rw [List.append_nil])
      | cons second rest =>
          rw [List.intercalate_cons_cons, List.append_assoc, first, List.singleton_append,
            splitFrom_dot, inductionHypothesis (List.cons_ne_nil _ _)
              fun other member => pass other (List.mem_cons_of_mem text member)]
          exact (foldr_continueFirst text [] _).trans (by rw [List.append_nil])

/-- Putting a character in front of the first part puts it in front of the joined text. -/
theorem intercalate_of_continueFirst {character : Char} {rest : List Char}
    {split : Except ExpressionFault (List (List Char))} {parts : List (List Char)}
    (joins : ∀ later, split = .ok later → later ≠ [] ∧ rest = ['.'].intercalate later)
    (found : splitFrom.continueFirst character split = .ok parts) :
    parts ≠ [] ∧ character :: rest = ['.'].intercalate parts := by
  cases split with
  | error reason => cases found
  | ok later =>
      obtain ⟨some, rfl⟩ := joins later rfl
      cases later with
      | nil => exact absurd rfl some
      | cons segment segments =>
          cases found
          refine ⟨List.cons_ne_nil _ _, ?_⟩
          cases segments with
          | nil => rfl
          | cons _ _ => rw [List.intercalate_cons_cons, List.intercalate_cons_cons]; rfl

/-- What a text is split into gives the text back. -/
theorem intercalate_of_splitFrom {depth : Nat} {text : List Char} {parts : List (List Char)}
    (found : splitFrom depth text = .ok parts) :
    parts ≠ [] ∧ text = ['.'].intercalate parts := by
  fun_induction splitFrom depth text generalizing parts with
  | case1 => cases found; exact ⟨by simp, rfl⟩
  | case2 => cases found
  | case3 depth character rest isOpen inductionHypothesis =>
      exact intercalate_of_continueFirst (fun _ => inductionHypothesis) found
  | case4 => cases found
  | case5 character rest notOpen isClose outer inductionHypothesis =>
      exact intercalate_of_continueFirst (fun _ => inductionHypothesis) found
  | case6 depth character rest notOpen notClose isDot inductionHypothesis =>
      obtain ⟨rfl, -⟩ := by simpa using isDot
      cases split : splitFrom 0 rest with
      | error reason =>
          rw [split] at found
          cases found
      | ok later =>
          obtain ⟨some, joined⟩ := inductionHypothesis split
          rw [split] at found
          cases found
          cases later with
          | nil => exact absurd rfl some
          | cons segment segments =>
              exact ⟨List.cons_ne_nil _ _, by rw [List.intercalate_cons_cons, ← joined]; rfl⟩
  | case7 depth character rest notOpen notClose notDot inductionHypothesis =>
      exact intercalate_of_continueFirst (fun _ => inductionHypothesis) found

/-! ## Paths -/

/-- The text of a path is split into what spells its segments. -/
theorem splitList_of_spells {segments : List Form} {texts : List (List Char)} {text : List Char}
    (spells : Spells segments texts text) : splitList text = .ok texts := by
  obtain ⟨some, all, rfl⟩ := spells
  have split : splitFrom 0 (['.'].intercalate texts) = .ok texts := by
    refine splitFrom_intercalate ?_ fun part member => ?_
    · rintro rfl
      cases all
      exact some rfl
    · obtain ⟨form, spells⟩ := exists_spells_of_mem all member
      exact passes_segment spells
  have noneEmpty : texts.contains [] = false := by
    rw [List.contains_eq_mem, decide_eq_false_iff_not]
    intro member
    obtain ⟨form, spells⟩ := exists_spells_of_mem all member
    exact spells.ne_nil rfl
  rw [splitList, split]
  dsimp only
  rw [noneEmpty]
  rfl

/-- What a text is split into spells a path, if each part spells a segment. -/
theorem spells_of_splitList {segments : List Form} {texts : List (List Char)} {text : List Char}
    (split : splitList text = .ok texts) (all : List.Forall₂ Form.Spells segments texts) :
    Spells segments texts text := by
  unfold splitList at split
  split at split
  · rename_i parts found
    split at split
    · cases split
    · cases split
      obtain ⟨some, joined⟩ := intercalate_of_splitFrom found
      refine ⟨?_, all, joined⟩
      rintro rfl
      cases all
      exact some rfl
  · cases split

/-! ## First characters -/

theorem exists_head_of_identifier {name : String} (identifier : Text.isIdentifier name = true)
    (rest : List Char) :
    ∃ character text, name.toList ++ rest = character :: text ∧ Text.isBlank character = false := by
  rw [Text.isIdentifier] at identifier
  have continues := Text.continues_of_isIdentifierList identifier
  obtain ⟨character, text, same⟩ :=
    List.exists_cons_of_ne_nil (Text.ne_nil_of_isIdentifierList identifier)
  refine ⟨character, text ++ rest, by rw [same, List.cons_append], ?_⟩
  exact Text.isBlank_of_continuesIdentifier (continues character (by rw [same]; simp))

/-- What spells a segment does not start with a blank. -/
theorem exists_head_of_segment {form : Form} {text : List Char} (spells : form.Spells text) :
    ∃ character rest, text = character :: rest ∧ Text.isBlank character = false := by
  obtain ⟨start, suffixes, base, indices, some, rfl⟩ := spells
  obtain ⟨formBase, formIndices⟩ := form
  cases base with
  | nothing =>
      cases indices with
      | nil => exact absurd rfl (some rfl)
      | cons index _ =>
          obtain ⟨_, inside, _, _, _, _, rfl⟩ := index
          exact ⟨'[', _, rfl, by decide⟩
  | field identifier => exact exists_head_of_identifier identifier _
  | method identifier _ =>
      rw [List.append_assoc, List.append_assoc]
      exact exists_head_of_identifier identifier _

/-- What spells a path does not start with a blank. -/
theorem Spells.exists_head {segments : List Form} {texts : List (List Char)} {text : List Char}
    (spells : Spells segments texts text) :
    ∃ character rest, text = character :: rest ∧ Text.isBlank character = false := by
  obtain ⟨some, all, rfl⟩ := spells
  cases all with
  | nil => exact absurd rfl some
  | cons first others =>
      obtain ⟨character, rest, rfl, noBlank⟩ := exists_head_of_segment first
      cases others with
      | nil => exact ⟨character, rest, by rw [List.intercalate_singleton], noBlank⟩
      | cons _ _ =>
          rw [List.intercalate_cons_cons]
          exact ⟨character, _, rfl, noBlank⟩

end ObjectPath.PathText
