import Mathlib.Data.List.Forall2
import ObjectPath.Proofs.Words

/-!
# The grammar of segments

A segment starts with a field, a method with its argument keys, or nothing, and goes on with
indices.  The grammar says which text spells which segment, without saying how one is read.
The readers of methods and of indices find exactly what is spelled.
-/

namespace ObjectPath

/-! ## Segments -/

/-- What a segment starts with. -/
inductive Base
  | nothing
  | field (name : String)
  | method (name : String) (keys : List String)
  deriving DecidableEq

/-- A segment: what it starts with, and the indices after that. -/
structure Form where
  base : Base
  indices : List Nat
  deriving DecidableEq

/-- Identifiers with commas between them and blanks around them; there may be none. -/
inductive KeysSpell : List String → List Char → Prop
  | none {blanks : List Char} : Text.Blanks blanks → KeysSpell [] blanks
  | last {key : String} {text : List Char} : Text.isIdentifier key = true →
      Text.Padded key.toList text → KeysSpell [key] text
  | next {key : String} {keys : List String} {text rest : List Char} :
      Text.isIdentifier key = true → Text.Padded key.toList text → keys ≠ [] →
        KeysSpell keys rest → KeysSpell (key :: keys) (text ++ ',' :: rest)

/-- What spells the start of a segment. -/
inductive Base.Spells : Base → List Char → Prop
  | nothing : Base.Spells .nothing []
  | field {name : String} : Text.isIdentifier name = true → Base.Spells (.field name) name.toList
  | method {name : String} {keys : List String} {inside : List Char} :
      Text.isIdentifier name = true → KeysSpell keys inside →
        Base.Spells (.method name keys) (name.toList ++ '(' :: inside ++ [')'])

/-- A number in brackets, with blanks around its digits. -/
def IndexSpells (index : Nat) (text : List Char) : Prop :=
  ∃ digits inside, Text.isDigitList digits = true ∧ Text.digitsValue digits = index ∧
    index ≤ greatestIndex ∧ Text.Padded digits inside ∧ text = '[' :: inside ++ [']']

/-- What spells a segment.  A segment that starts with nothing has an index. -/
def Form.Spells (form : Form) (text : List Char) : Prop :=
  ∃ start suffixes, form.base.Spells start ∧ List.Forall₂ IndexSpells form.indices suffixes ∧
    (form.base = .nothing → form.indices ≠ []) ∧ text = start ++ suffixes.flatten

/-! ## Marks -/

/-- A character that is no blank and no part of a word. -/
def IsMark (character : Char) : Prop :=
  Text.isBlank character = false ∧ Text.continuesIdentifier character = false

instance (character : Char) : Decidable (IsMark character) :=
  inferInstanceAs (Decidable (_ ∧ _))

section Marks

variable {mark : Char} (isMark : IsMark mark)

include isMark

theorem IsMark.not_mem_word {word : List Char}
    (continues : ∀ character ∈ word, Text.continuesIdentifier character = true) : mark ∉ word := by
  intro member
  have impossible := continues mark member
  rw [isMark.2] at impossible
  cases impossible

theorem IsMark.not_mem_blanks {text : List Char} (blanks : Text.Blanks text) : mark ∉ text := by
  intro member
  have impossible := blanks mark member
  rw [isMark.1] at impossible
  cases impossible

theorem IsMark.not_mem_padded {word text : List Char} (padded : Text.Padded word text)
    (continues : ∀ character ∈ word, Text.continuesIdentifier character = true) : mark ∉ text := by
  obtain ⟨before, after, blanksBefore, blanksAfter, rfl⟩ := padded
  intro member
  rcases List.mem_append.1 member with first | isAfter
  · rcases List.mem_append.1 first with isBefore | inWord
    · exact isMark.not_mem_blanks blanksBefore isBefore
    · exact isMark.not_mem_word continues inWord
  · exact isMark.not_mem_blanks blanksAfter isAfter

/-- Among argument keys there is no other mark than the comma. -/
theorem IsMark.not_mem_keys {keys : List String} {text : List Char} (spells : KeysSpell keys text)
    (noComma : mark ≠ ',') : mark ∉ text := by
  induction spells with
  | none blanks => exact isMark.not_mem_blanks blanks
  | last identifier padded =>
      exact isMark.not_mem_padded padded (Text.continues_of_isIdentifierList identifier)
  | next identifier padded _ _ inductionHypothesis =>
      intro member
      rcases List.mem_append.1 member with first | later
      · exact isMark.not_mem_padded padded (Text.continues_of_isIdentifierList identifier) first
      · rcases List.mem_cons.1 later with same | inRest
        · exact noComma same
        · exact inductionHypothesis inRest

end Marks

/-! ## Argument keys -/

theorem KeysSpell.identifiers {keys : List String} {text : List Char} (spells : KeysSpell keys text) :
    ∀ key ∈ keys, Text.isIdentifier key = true := by
  induction spells with
  | none => simp
  | last identifier => simpa using identifier
  | next identifier _ _ _ inductionHypothesis =>
      intro key member
      rcases List.mem_cons.1 member with rfl | isLater
      · exact identifier
      · exact inductionHypothesis key isLater

/-- The parts between the commas, without blanks, are the argument keys. -/
theorem KeysSpell.parts {keys : List String} {text : List Char} (spells : KeysSpell keys text)
    (some : keys ≠ []) :
    (Text.splitOnChar ',' text).map Text.trimList = keys.map String.toList := by
  have trimmed : ∀ {key : String} {part : List Char}, Text.isIdentifier key = true →
      Text.Padded key.toList part → Text.trimList part = key.toList ∧ ',' ∉ part := by
    intro key part identifier padded
    have continues := Text.continues_of_isIdentifierList identifier
    exact ⟨Text.trimList_of_padded padded (Text.solid_of_continues continues),
      IsMark.not_mem_padded (by decide) padded continues⟩
  induction spells with
  | none => exact absurd rfl some
  | last identifier padded =>
      obtain ⟨same, absent⟩ := trimmed identifier padded
      rw [Text.splitOnChar_of_not_mem absent, List.map_singleton, same, List.map_singleton]
  | next identifier padded more _ inductionHypothesis =>
      obtain ⟨same, absent⟩ := trimmed identifier padded
      rw [Text.splitOnChar_append absent, Text.splitOnChar_cons_self, List.modifyHead_cons,
        List.append_nil, List.map_cons, same, inductionHypothesis more, List.map_cons]

theorem keysOf_eq (inside : List Char) :
    Segment.keysOf inside = if Text.trimList inside = [] then [] else
      (Text.splitOnChar ',' inside).map Text.trimList := by
  unfold Segment.keysOf
  rw [← Text.map_trimList_splitOnChar (by decide)]
  cases Text.trimList inside <;> rfl

/-- The argument keys that are read are those that are spelled. -/
theorem keysOf_of_spells {keys : List String} {inside : List Char}
    (spells : KeysSpell keys inside) : Segment.keysOf inside = keys.map String.toList := by
  rw [keysOf_eq]
  cases keys with
  | nil =>
      cases spells with
      | none blanks => exact if_pos (Text.trimList_of_blanks blanks)
  | cons key keys =>
      have parts := spells.parts (List.cons_ne_nil key keys)
      rw [if_neg, parts]
      intro nothing
      rw [← Text.map_trimList_splitOnChar (by decide), nothing, List.map_cons, Text.splitOnChar,
        List.map_singleton, List.cons.injEq] at parts
      exact Text.ne_nil_of_isIdentifierList (spells.identifiers key (List.mem_cons_self ..))
        parts.1.symm

/-- What is read as argument keys spells them, if it is identifiers. -/
theorem spells_of_keysOf {inside : List Char}
    (identifiers : ∀ key ∈ Segment.keysOf inside, Text.isIdentifierList key = true) :
    KeysSpell ((Segment.keysOf inside).map String.ofList) inside := by
  -- Each part spells its key, and the commas between the parts are those between the keys.
  have joined : ∀ parts : List (List Char), parts ≠ [] →
      (∀ part ∈ parts, Text.isIdentifierList (Text.trimList part) = true) →
        KeysSpell ((parts.map Text.trimList).map String.ofList) ([','].intercalate parts) := by
    intro parts
    induction parts with
    | nil => exact fun some => absurd rfl some
    | cons part parts inductionHypothesis =>
        intro _ words
        have word : Text.isIdentifier (String.ofList (Text.trimList part)) = true := by
          rw [Text.isIdentifier, String.toList_ofList]
          exact words part (List.mem_cons_self ..)
        have padded : Text.Padded (String.ofList (Text.trimList part)).toList part := by
          rw [String.toList_ofList]
          exact Text.padded_trimList part
        cases parts with
        | nil => simpa using KeysSpell.last word padded
        | cons second rest =>
            rw [List.intercalate_cons_cons, List.append_assoc]
            exact .next word padded (by simp) (inductionHypothesis (List.cons_ne_nil _ _)
              fun other member => words other (List.mem_cons_of_mem part member))
  rw [keysOf_eq] at identifiers ⊢
  split
  · rename_i nothing
    exact .none (Text.blanks_of_trimList_eq_nil nothing)
  · rename_i something
    rw [if_neg something] at identifiers
    have spelled := joined _ (Text.splitOnChar_ne_nil ',' inside) fun part member =>
      identifiers _ (List.mem_map_of_mem member)
    rwa [Text.intercalate_splitOnChar] at spelled

/-! ## Methods -/

/-- A text that ends in a closing parenthesis is read as the method that it spells. -/
theorem readMethod_ok_iff {text name : List Char} {keys : List (List Char)}
    (last : text.getLast? = some ')') :
    Segment.readMethod text = .ok (name, keys) ↔
      Text.isIdentifierList name = true ∧ ∃ inside, KeysSpell (keys.map String.ofList) inside ∧
        text = name ++ '(' :: inside ++ [')'] := by
  unfold Segment.readMethod
  constructor
  · intro read
    split at read
    · cases read
    · rename_i before after found
      obtain ⟨_, rfl⟩ := Text.cutAt_eq_some.1 found
      split at read
      · rename_i identifier
        dsimp only at read
        split at read
        · cases read
        · rename_i allIdentifiers
          cases read
          -- The parenthesis at the end is not read itself; it is there since the whole text ends in
          -- it.
          have ends : after = after.dropLast ++ [')'] := by
            rw [List.getLast?_append_of_ne_nil _ (List.cons_ne_nil _ _)] at last
            cases after with
            | nil => cases last
            | cons first rest =>
                rw [List.getLast?_cons_cons] at last
                exact (List.dropLast_append_getLast? _ last).symm
          refine ⟨identifier, after.dropLast, spells_of_keysOf fun key member => ?_, ?_⟩
          · simpa using List.find?_eq_none.1 allIdentifiers key member
          · rw [List.append_assoc, List.cons_append, ← ends]
      · cases read
  · rintro ⟨identifier, inside, spells, rfl⟩
    have absent : '(' ∉ name := IsMark.not_mem_word (by decide)
      (Text.continues_of_isIdentifierList identifier)
    have found : Text.cutAt '(' (name ++ '(' :: inside ++ [')']) =
        some (name, inside ++ [')']) :=
      Text.cutAt_eq_some.2 ⟨absent, by rw [List.append_assoc, List.cons_append]⟩
    have keysRead : Segment.keysOf inside = keys := by
      rw [keysOf_of_spells spells, List.map_map]
      simp [Function.comp_def]
    have none : keys.find? (!Text.isIdentifierList ·) = none := by
      rw [List.find?_eq_none]
      intro key member
      have isIdentifier := spells.identifiers _ (List.mem_map_of_mem member)
      rw [Text.isIdentifier, String.toList_ofList] at isIdentifier
      simp [isIdentifier]
    rw [found]
    dsimp only
    rw [if_pos identifier, List.dropLast_concat, keysRead, none]

/-! ## Indices -/

theorem splitAtLastBracket_eq_some {text inner inside : List Char} :
    Segment.splitAtLastBracket text = some (inner, inside) ↔
      '[' ∉ inside ∧ text = inner ++ '[' :: inside := by
  unfold Segment.splitAtLastBracket
  constructor
  · intro found
    split at found
    · cases found
    · rename_i bracket before dropped
      cases found
      have isBracket : bracket = '[' := by
        have head := List.head?_dropWhile_not (· != '[') text.reverse
        rw [dropped] at head
        simpa using head
      refine ⟨fun member => ?_, ?_⟩
      · have passed := List.mem_takeWhile_imp (List.mem_reverse.1 member)
        simp at passed
      · have whole : text.reverse.takeWhile (· != '[') ++ text.reverse.dropWhile (· != '[') =
            text.reverse := List.takeWhile_append_dropWhile
        rw [dropped, isBracket] at whole
        have turned := congrArg List.reverse whole
        rw [List.reverse_append, List.reverse_reverse, List.reverse_cons, List.append_assoc] at turned
        exact turned.symm
  · rintro ⟨absent, rfl⟩
    have passes : ∀ character ∈ inside.reverse, (character != '[') = true := by
      intro character member
      rw [bne_iff_ne]
      rintro rfl
      exact absent (List.mem_reverse.1 member)
    have reversed : (inner ++ '[' :: inside).reverse = inside.reverse ++ '[' :: inner.reverse := by
      simp
    rw [reversed, List.dropWhile_append_of_pos passes, List.takeWhile_append_of_pos passes]
    simp

/-- A text that ends in a closing bracket is read as the index that its end spells. -/
theorem readArray_ok_iff {text inner : List Char} {index : Nat} (last : text.getLast? = some ']') :
    Segment.readArray text = .ok (inner, index) ↔
      ∃ suffix, IndexSpells index suffix ∧ text = inner ++ suffix := by
  unfold Segment.readArray
  constructor
  · intro read
    split at read
    · cases read
    · rename_i before inside found
      obtain ⟨_, rfl⟩ := splitAtLastBracket_eq_some.1 found
      dsimp only at read
      split at read
      · rename_i valid
        cases read
        rw [Bool.and_eq_true, decide_eq_true_eq] at valid
        have ends : inside = inside.dropLast ++ [']'] := by
          rw [List.getLast?_append_of_ne_nil _ (List.cons_ne_nil _ _)] at last
          cases inside with
          | nil => cases last
          | cons first rest =>
              rw [List.getLast?_cons_cons] at last
              exact (List.dropLast_append_getLast? _ last).symm
        exact ⟨'[' :: inside, ⟨_, inside.dropLast, valid.1, rfl, valid.2, Text.padded_trimList _, by
          rw [List.cons_append, ← ends]⟩, rfl⟩
      · cases read
  · rintro ⟨suffix, ⟨digits, inside, areDigits, rfl, small, padded, rfl⟩, rfl⟩
    have continues := Text.continues_of_isDigitList areDigits
    have absent : '[' ∉ inside ++ [']'] := by
      intro member
      rcases List.mem_append.1 member with isInside | same
      · exact IsMark.not_mem_padded (by decide) padded continues isInside
      · exact absurd (List.mem_singleton.1 same) (by decide)
    have found := splitAtLastBracket_eq_some.2 (show _ ∧ inner ++ ('[' :: inside ++ [']']) = _ from
      ⟨absent, rfl⟩)
    have trimmed : Text.trimList inside = digits :=
      Text.trimList_of_padded padded (Text.solid_of_continues continues)
    rw [found]
    dsimp only
    rw [List.dropLast_concat, trimmed, if_pos (by rw [areDigits, decide_eq_true small]; rfl)]

/-! ## Forms -/

/-- The pairs of a list that ends in an element end in the pair of that element. -/
theorem exists_concat_of_forall₂ {α β : Type} {related : α → β → Prop} {firsts : List α} {last : α}
    {seconds : List β} (all : List.Forall₂ related (firsts ++ [last]) seconds) :
    ∃ earlier final, List.Forall₂ related firsts earlier ∧ related last final ∧
      seconds = earlier ++ [final] := by
  induction firsts generalizing seconds with
  | nil =>
      cases all with
      | cons isRelated rest =>
          cases rest
          exact ⟨[], _, .nil, isRelated, rfl⟩
  | cons first firsts inductionHypothesis =>
      cases all with
      | cons isRelated rest =>
          obtain ⟨earlier, final, allEarlier, isFinal, rfl⟩ := inductionHypothesis rest
          exact ⟨_ :: earlier, final, .cons isRelated allEarlier, isFinal, rfl⟩

theorem IndexSpells.getLast? {index : Nat} {text : List Char} (spells : IndexSpells index text) :
    text.getLast? = some ']' := by
  obtain ⟨_, inside, _, _, _, _, rfl⟩ := spells
  exact List.getLast?_concat

theorem IndexSpells.ne_nil {index : Nat} {text : List Char} (spells : IndexSpells index text) :
    text ≠ [] := by
  obtain ⟨_, _, _, _, _, _, rfl⟩ := spells
  exact List.cons_ne_nil _ _

theorem Base.spells_field {name : List Char} (identifier : Text.isIdentifierList name = true) :
    Base.Spells (.field (String.ofList name)) name := by
  have spells := @Base.Spells.field (String.ofList name)
    (by rwa [Text.isIdentifier, String.toList_ofList])
  rwa [String.toList_ofList] at spells

theorem Base.spells_method {name inside : List Char} {keys : List String}
    (identifier : Text.isIdentifierList name = true) (spelled : KeysSpell keys inside) :
    Base.Spells (.method (String.ofList name) keys) (name ++ '(' :: inside ++ [')']) := by
  have spells := @Base.Spells.method (String.ofList name) keys inside
    (by rwa [Text.isIdentifier, String.toList_ofList]) spelled
  rwa [String.toList_ofList] at spells

/-- A start without indices. -/
theorem Form.spells_base {base : Base} {text : List Char} :
    Form.Spells ⟨base, []⟩ text ↔ base.Spells text ∧ base ≠ .nothing := by
  constructor
  · rintro ⟨start, suffixes, spells, indices, some, rfl⟩
    cases indices
    rw [List.flatten_nil, List.append_nil]
    exact ⟨spells, fun nothing => some nothing rfl⟩
  · rintro ⟨spells, something⟩
    exact ⟨text, [], spells, .nil, fun nothing => absurd nothing something, by simp⟩

/-- A segment with an index at its end: the index follows a segment, or nothing at all. -/
theorem Form.spells_index {base : Base} {indices : List Nat} {index : Nat} {text : List Char} :
    Form.Spells ⟨base, indices ++ [index]⟩ text ↔
      ∃ inner suffix, IndexSpells index suffix ∧ text = inner ++ suffix ∧
        ((inner = [] ∧ base = .nothing ∧ indices = []) ∨ Form.Spells ⟨base, indices⟩ inner) := by
  constructor
  · rintro ⟨start, suffixes, spells, all, _, rfl⟩
    obtain ⟨earlier, suffix, allEarlier, ends, rfl⟩ := exists_concat_of_forall₂ all
    refine ⟨start ++ earlier.flatten, suffix, ends, by simp, ?_⟩
    by_cases both : base = .nothing ∧ indices = []
    · obtain ⟨rfl, rfl⟩ := both
      cases spells
      cases allEarlier
      exact Or.inl ⟨rfl, rfl, rfl⟩
    · exact Or.inr ⟨start, earlier, spells, allEarlier, fun nothing none => both ⟨nothing, none⟩, rfl⟩
  · rintro ⟨inner, suffix, ends, rfl, ⟨rfl, rfl, rfl⟩ | ⟨start, suffixes, spells, all, some, rfl⟩⟩
    · exact ⟨[], [suffix], .nothing, .cons ends .nil, fun _ => List.cons_ne_nil _ _, by simp⟩
    · exact ⟨start, suffixes ++ [suffix], spells, List.rel_append all (.cons ends .nil),
        fun _ => by simp, by simp⟩

/-! ## Endings -/

theorem Base.Spells.getLast? {base : Base} {text : List Char} (spells : base.Spells text)
    (something : base ≠ .nothing) :
    (∃ name, base = .field name ∧ Text.isIdentifier name = true ∧ text = name.toList) ∨
      (∃ name keys, base = .method name keys ∧ text.getLast? = some ')') := by
  cases spells with
  | nothing => exact absurd rfl something
  | field identifier => exact Or.inl ⟨_, rfl, identifier, rfl⟩
  | method identifier keys => exact Or.inr ⟨_, _, rfl, List.getLast?_concat⟩

/-- An identifier ends in no mark. -/
theorem IsMark.getLast?_ne {mark : Char} (isMark : IsMark mark) {word : List Char}
    (identifier : Text.isIdentifierList word = true) : word.getLast? ≠ some mark := fun last =>
  isMark.not_mem_word (Text.continues_of_isIdentifierList identifier) (List.mem_of_getLast? last)

/-- A segment ends in an index, or it is a field or a method. -/
theorem Form.Spells.cases {form : Form} {text : List Char} (spells : form.Spells text) :
    (∃ base indices index, form = ⟨base, indices ++ [index]⟩ ∧ text.getLast? = some ']') ∨
      (∃ name, form = ⟨.field name, []⟩ ∧ Text.isIdentifier name = true ∧ text = name.toList) ∨
      (∃ name keys, form = ⟨.method name keys, []⟩ ∧ text.getLast? = some ')') := by
  obtain ⟨base, indices⟩ := form
  rcases List.eq_nil_or_concat indices with rfl | ⟨earlier, index, rfl⟩
  · obtain ⟨start, something⟩ := Form.spells_base.1 spells
    rcases start.getLast? something with ⟨name, rfl, identifier, rfl⟩ | ⟨name, keys, rfl, last⟩
    · exact Or.inr (Or.inl ⟨name, rfl, identifier, rfl⟩)
    · exact Or.inr (Or.inr ⟨name, keys, rfl, last⟩)
  · rw [List.concat_eq_append] at spells ⊢
    obtain ⟨inner, suffix, ends, rfl, _⟩ := Form.spells_index.1 spells
    refine Or.inl ⟨base, earlier, index, rfl, ?_⟩
    rw [List.getLast?_append_of_ne_nil _ ends.ne_nil, ends.getLast?]

theorem Form.Spells.ne_nil {form : Form} {text : List Char} (spells : form.Spells text) :
    text ≠ [] := by
  rintro rfl
  rcases spells.cases with ⟨_, _, _, _, last⟩ | ⟨name, _, identifier, same⟩ | ⟨_, _, _, last⟩
  · cases last
  · rw [Text.isIdentifier, ← same] at identifier
    cases identifier
  · cases last

/-- What ends in a closing parenthesis spells a method, if it spells a segment. -/
theorem Form.Spells.readMethod {form : Form} {text : List Char} (spells : form.Spells text)
    (last : text.getLast? = some ')') :
    ∃ name keys, form = ⟨.method (String.ofList name) (keys.map String.ofList), []⟩ ∧
      Segment.readMethod text = .ok (name, keys) := by
  rcases spells.cases with ⟨_, _, _, _, other⟩ | ⟨name, _, identifier, rfl⟩ | ⟨name, keys, rfl, _⟩
  · rw [last] at other
    cases other
  · exact absurd last (IsMark.getLast?_ne (by decide) identifier)
  · refine ⟨name.toList, keys.map String.toList, by simp [Function.comp_def], ?_⟩
    rw [readMethod_ok_iff last]
    cases (Form.spells_base.1 spells).1 with
    | method identifier inside =>
        exact ⟨identifier, _, by simpa [Function.comp_def] using inside, rfl⟩

/-- What ends in a closing bracket spells an index after a segment or after nothing, if it
spells a segment. -/
theorem Form.Spells.readArray {form : Form} {text : List Char} (spells : form.Spells text)
    (last : text.getLast? = some ']') :
    ∃ base indices index inner, form = ⟨base, indices ++ [index]⟩ ∧
      Segment.readArray text = .ok (inner, index) ∧
      ((inner = [] ∧ base = .nothing ∧ indices = []) ∨ Form.Spells ⟨base, indices⟩ inner) := by
  rcases spells.cases with ⟨base, indices, index, rfl, _⟩ | ⟨name, _, identifier, rfl⟩ |
    ⟨_, _, _, other⟩
  · obtain ⟨inner, suffix, ends, same, before⟩ := Form.spells_index.1 spells
    exact ⟨base, indices, index, inner, rfl, (readArray_ok_iff last).2 ⟨suffix, ends, same⟩, before⟩
  · exact absurd last (IsMark.getLast?_ne (by decide) identifier)
  · rw [last] at other
    cases other

/-- What ends otherwise spells a field, if it spells a segment. -/
theorem Form.Spells.isIdentifierList {form : Form} {text : List Char} (spells : form.Spells text)
    (noParenthesis : text.getLast? ≠ some ')') (noBracket : text.getLast? ≠ some ']') :
    form = ⟨.field (String.ofList text), []⟩ ∧ Text.isIdentifierList text = true := by
  rcases spells.cases with ⟨_, _, _, _, last⟩ | ⟨name, rfl, identifier, rfl⟩ | ⟨_, _, _, last⟩
  · exact absurd last noBracket
  · exact ⟨by rw [String.ofList_toList], identifier⟩
  · exact absurd last noParenthesis

/-- The grammar is unambiguous: a text spells one segment at most. -/
theorem Form.Spells.unique {form other : Form} {text : List Char} (spells : form.Spells text)
    (spellsOther : other.Spells text) : form = other := by
  induction size : text.length using Nat.strong_induction_on generalizing text form other with
  | _ size inductionHypothesis =>
  subst size
  by_cases parenthesis : text.getLast? = some ')'
  · obtain ⟨name, keys, rfl, read⟩ := spells.readMethod parenthesis
    obtain ⟨_, _, rfl, readOther⟩ := spellsOther.readMethod parenthesis
    rw [read] at readOther
    cases readOther
    rfl
  by_cases bracket : text.getLast? = some ']'
  · obtain ⟨base, indices, index, inner, rfl, read, before⟩ := spells.readArray bracket
    obtain ⟨_, _, _, _, rfl, readOther, beforeOther⟩ := spellsOther.readArray bracket
    rw [read] at readOther
    cases readOther
    rcases before with ⟨rfl, rfl, rfl⟩ | spellsInner
    · rcases beforeOther with ⟨_, rfl, rfl⟩ | impossible
      · rfl
      · exact absurd rfl impossible.ne_nil
    · rcases beforeOther with ⟨rfl, _⟩ | spellsInnerOther
      · exact absurd rfl spellsInner.ne_nil
      · cases inductionHypothesis _ (Segment.readArray_length read) spellsInner spellsInnerOther rfl
        rfl
  · rw [(spells.isIdentifierList parenthesis bracket).1,
      (spellsOther.isIdentifierList parenthesis bracket).1]

end ObjectPath
