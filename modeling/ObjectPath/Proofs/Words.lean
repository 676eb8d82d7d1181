import Mathlib.Data.List.TakeWhile
import ObjectPath.Node

/-!
# Words in a text

Words stand among blanks and between separators.  Trimming a text finds a word among blanks,
and splitting a text at a separator is the inverse of joining its parts.
-/

namespace ObjectPath.Text

/-! ## Characters -/

/-- The codes of the characters that an identifier goes on with. -/
theorem code_of_continuesIdentifier {character : Char}
    (continues : continuesIdentifier character = true) :
    character.toNat = 36 ∨ character.toNat = 95 ∨ (48 ≤ character.toNat ∧ character.toNat ≤ 57) ∨
      (65 ≤ character.toNat ∧ character.toNat ≤ 90) ∨
      (97 ≤ character.toNat ∧ character.toNat ≤ 122) := by
  simp only [continuesIdentifier, startsIdentifier] at continues
  delta Char.isAlpha Char.isUpper Char.isLower Char.isDigit at continues
  simp only [Bool.or_eq_true, Bool.and_eq_true, decide_eq_true_eq, beq_iff_eq, ge_iff_le,
    UInt32.le_iff_toNat_le] at continues
  rcases continues with (((upper | lower) | rfl) | rfl) | digit
  · exact Or.inr (Or.inr (Or.inr (Or.inl upper)))
  · exact Or.inr (Or.inr (Or.inr (Or.inr lower)))
  · exact Or.inr (Or.inl rfl)
  · exact Or.inl rfl
  · exact Or.inr (Or.inr (Or.inl digit))

theorem code_of_isBlank {character : Char} (blank : isBlank character = true) :
    character.toNat ≤ 32 ∨ 160 ≤ character.toNat := by
  simp only [isBlank, Bool.or_eq_true, Bool.and_eq_true, decide_eq_true_eq, beq_iff_eq] at blank
  omega

/-- The characters that an identifier goes on with are no blanks. -/
theorem isBlank_of_continuesIdentifier {character : Char}
    (continues : continuesIdentifier character = true) : isBlank character = false := by
  by_contra blank
  have code := code_of_continuesIdentifier continues
  have blankCode := code_of_isBlank (Bool.not_eq_false _ ▸ blank)
  omega

theorem continuesIdentifier_of_isDigit {character : Char} (digit : character.isDigit = true) :
    continuesIdentifier character = true := by
  rw [continuesIdentifier, digit, Bool.or_true]

theorem continues_of_isIdentifierList {word : List Char} (identifier : isIdentifierList word = true) :
    ∀ character ∈ word, continuesIdentifier character = true := by
  cases word with
  | nil => simp
  | cons first rest =>
      obtain ⟨starts, continues⟩ := Bool.and_eq_true_iff.1 identifier
      intro character member
      rcases List.mem_cons.1 member with rfl | isLater
      · rw [continuesIdentifier, starts, Bool.true_or]
      · exact List.all_eq_true.1 continues character isLater

theorem continues_of_isDigitList {word : List Char} (digits : isDigitList word = true) :
    ∀ character ∈ word, continuesIdentifier character = true := fun character member =>
  continuesIdentifier_of_isDigit
    (List.all_eq_true.1 (Bool.and_eq_true_iff.1 digits).2 character member)

theorem ne_nil_of_isIdentifierList {word : List Char} (identifier : isIdentifierList word = true) :
    word ≠ [] := by
  rintro rfl
  cases identifier

/-! ## Words among blanks -/

/-- A text of blanks. -/
def Blanks (text : List Char) : Prop :=
  ∀ character ∈ text, isBlank character = true

instance (text : List Char) : Decidable (Blanks text) :=
  decidable_of_iff (text.all isBlank = true) List.all_eq_true

/-- A word without blanks. -/
def Solid (word : List Char) : Prop :=
  ∀ character ∈ word, isBlank character = false

/-- A word with blanks before and after it. -/
def Padded (word text : List Char) : Prop :=
  ∃ before after, Blanks before ∧ Blanks after ∧ text = before ++ word ++ after

theorem solid_of_continues {word : List Char}
    (continues : ∀ character ∈ word, continuesIdentifier character = true) : Solid word :=
  fun character member => isBlank_of_continuesIdentifier (continues character member)

theorem trimEnd_of_blanks {text : List Char} (blanks : Blanks text) : trimEnd text = [] := by
  induction text with
  | nil => rfl
  | cons character rest inductionHypothesis =>
      rw [trimEnd, inductionHypothesis fun other member =>
        blanks other (List.mem_cons_of_mem character member)]
      exact if_pos (blanks character (List.mem_cons_self ..))

/-- Blanks at the end do not matter when they are trimmed away. -/
theorem trimEnd_append_blanks (text : List Char) {after : List Char} (blanks : Blanks after) :
    trimEnd (text ++ after) = trimEnd text := by
  induction text with
  | nil => exact trimEnd_of_blanks blanks
  | cons character rest inductionHypothesis =>
      rw [List.cons_append, trimEnd, inductionHypothesis, trimEnd]

theorem trimEnd_of_solid {word : List Char} (solid : Solid word) : trimEnd word = word := by
  induction word with
  | nil => rfl
  | cons character rest inductionHypothesis =>
      rw [trimEnd, inductionHypothesis fun other member =>
        solid other (List.mem_cons_of_mem character member)]
      cases rest with
      | nil => exact if_neg (by rw [solid character (List.mem_cons_self ..)]; exact Bool.false_ne_true)
      | cons _ _ => rfl

theorem exists_trimEnd (text : List Char) :
    ∃ after, Blanks after ∧ text = trimEnd text ++ after := by
  induction text with
  | nil => exact ⟨[], by simp [Blanks], rfl⟩
  | cons character rest inductionHypothesis =>
      obtain ⟨after, blanks, same⟩ := inductionHypothesis
      rw [trimEnd]
      split
      · rename_i nothing
        rw [nothing, List.nil_append] at same
        split
        · rename_i blank
          refine ⟨character :: rest, ?_, rfl⟩
          intro other member
          rcases List.mem_cons.1 member with rfl | isLater
          · exact blank
          · exact blanks other (same ▸ isLater)
        · exact ⟨rest, same ▸ blanks, rfl⟩
      · exact ⟨after, blanks, by rw [List.cons_append, ← same]⟩

theorem trimList_blanks_append {before : List Char} (blanks : Blanks before) (text : List Char) :
    trimList (before ++ text) = trimList text := by
  rw [trimList, trimList, List.dropWhile_append_of_pos blanks]

theorem trimList_append_blanks (text : List Char) {after : List Char} (blanks : Blanks after) :
    trimList (text ++ after) = trimList text := by
  rw [trimList, trimList, List.dropWhile_append]
  split
  · rename_i allBlank
    rw [List.isEmpty_iff.1 allBlank, trimEnd_of_blanks]
    · rfl
    · exact fun character member => blanks character ((List.dropWhile_suffix _).subset member)
  · exact trimEnd_append_blanks _ blanks

theorem trimList_of_solid {word : List Char} (solid : Solid word) : trimList word = word := by
  rw [trimList]
  cases word with
  | nil => rfl
  | cons first rest =>
      rw [List.dropWhile_cons_of_neg (by
        rw [solid first (List.mem_cons_self ..)]; exact Bool.false_ne_true)]
      exact trimEnd_of_solid solid

/-- Trimming finds the word among blanks. -/
theorem trimList_of_padded {word text : List Char} (padded : Padded word text)
    (solid : Solid word) : trimList text = word := by
  obtain ⟨before, after, blanksBefore, blanksAfter, rfl⟩ := padded
  rw [trimList_append_blanks _ blanksAfter, trimList_blanks_append blanksBefore,
    trimList_of_solid solid]

theorem padded_trimList (text : List Char) : Padded (trimList text) text := by
  obtain ⟨after, blanks, same⟩ := exists_trimEnd (text.dropWhile isBlank)
  refine ⟨text.takeWhile isBlank, after, fun _ => List.mem_takeWhile_imp, blanks, ?_⟩
  rw [List.append_assoc, trimList, ← same, List.takeWhile_append_dropWhile]

theorem blanks_of_trimList_eq_nil {text : List Char} (nothing : trimList text = []) :
    Blanks text := by
  obtain ⟨before, after, blanksBefore, blanksAfter, same⟩ := padded_trimList text
  rw [same, nothing]
  intro character member
  simp only [List.append_nil, List.mem_append] at member
  exact member.elim (blanksBefore character) (blanksAfter character)

theorem trimList_of_blanks {text : List Char} (blanks : Blanks text) : trimList text = [] := by
  have trimmed := trimList_append_blanks [] blanks
  exact trimmed

theorem trimEnd_trimEnd (text : List Char) : trimEnd (trimEnd text) = trimEnd text := by
  obtain ⟨after, blanks, same⟩ := exists_trimEnd text
  rw [← trimEnd_append_blanks _ blanks, ← same]

/-- What is trimmed at its end stays so without its beginning. -/
theorem trimEnd_of_append {before text : List Char}
    (trimmed : trimEnd (before ++ text) = before ++ text) : trimEnd text = text := by
  induction before with
  | nil => exact trimmed
  | cons character rest inductionHypothesis =>
      refine inductionHypothesis ?_
      rw [List.cons_append, trimEnd] at trimmed
      split at trimmed
      · rename_i nothing
        split at trimmed
        · cases trimmed
        · rw [nothing]
          exact (List.cons.inj trimmed).2
      · exact (List.cons.inj trimmed).2

/-- What is trimmed at its end stays so behind another text. -/
theorem trimEnd_append_of_trimmed (before : List Char) {text : List Char}
    (trimmed : trimEnd text = text) (something : text ≠ []) :
    trimEnd (before ++ text) = before ++ text := by
  induction before with
  | nil => exact trimmed
  | cons character rest inductionHypothesis =>
      rw [List.cons_append, trimEnd, inductionHypothesis]
      split
      · rename_i nothing
        exact absurd (List.append_eq_nil_iff.1 nothing).2 something
      · rfl

theorem trimEnd_trimList (text : List Char) : trimEnd (trimList text) = trimList text :=
  trimEnd_trimEnd _

theorem trimEnd_cons {character : Char} (noBlank : isBlank character = false) (rest : List Char) :
    trimEnd (character :: rest) = character :: trimEnd rest := by
  rw [trimEnd]
  split
  · rename_i nothing
    rw [nothing]
    exact if_neg (by rw [noBlank]; exact Bool.false_ne_true)
  · rfl

theorem trimList_cons {character : Char} (noBlank : isBlank character = false) (rest : List Char) :
    trimList (character :: rest) = character :: trimEnd rest := by
  rw [trimList, List.dropWhile_cons_of_neg (by rw [noBlank]; exact Bool.false_ne_true),
    trimEnd_cons noBlank]

theorem trimList_trimList (text : List Char) : trimList (trimList text) = trimList text := by
  cases start : text.dropWhile isBlank with
  | nil =>
      have nothing : trimList text = [] := by
        rw [trimList, start]
        rfl
      rw [nothing]
      rfl
  | cons character rest =>
      have noBlank : isBlank character = false := by
        have isHead := List.head_dropWhile_not isBlank (l := text)
          (by rw [start]; exact List.cons_ne_nil _ _)
        simpa [start] using isHead
      rw [show trimList text = character :: trimEnd rest by
        rw [trimList, start, trimEnd_cons noBlank], trimList_cons noBlank, trimEnd_trimEnd]

@[simp]
theorem trim_trim (text : String) : trim (trim text) = trim text := by
  rw [trim, trim, String.toList_ofList, trimList_trimList]

/-! ## Parts between separators -/

theorem splitOnChar_ne_nil (separator : Char) (text : List Char) : splitOnChar separator text ≠ [] := by
  cases text with
  | nil => simp [splitOnChar]
  | cons character rest =>
      rw [splitOnChar]
      split
      · simp
      · split <;> simp

/-- What comes before the first separator goes to the first part. -/
theorem splitOnChar_append {separator : Char} {before : List Char} (absent : separator ∉ before)
    (text : List Char) :
    splitOnChar separator (before ++ text) =
      (splitOnChar separator text).modifyHead (before ++ ·) := by
  induction before with
  | nil =>
      rw [List.nil_append]
      cases splitOnChar separator text <;> rfl
  | cons character rest inductionHypothesis =>
      have different : character ≠ separator := by
        rintro rfl
        exact absent (List.mem_cons_self ..)
      rw [List.cons_append, splitOnChar, if_neg different,
        inductionHypothesis fun member => absent (List.mem_cons_of_mem character member)]
      obtain ⟨part, parts, found⟩ := List.exists_cons_of_ne_nil (splitOnChar_ne_nil separator text)
      rw [found]
      rfl

theorem splitOnChar_of_not_mem {separator : Char} {text : List Char} (absent : separator ∉ text) :
    splitOnChar separator text = [text] := by
  have parts := splitOnChar_append absent []
  rw [List.append_nil] at parts
  rw [parts, splitOnChar, List.modifyHead_cons, List.append_nil]

/-- What comes after the last separator goes to the last part. -/
theorem exists_splitOnChar_append {separator : Char} (text : List Char) {after : List Char}
    (absent : separator ∉ after) :
    ∃ parts last, splitOnChar separator text = parts ++ [last] ∧
      splitOnChar separator (text ++ after) = parts ++ [last ++ after] := by
  induction text with
  | nil => exact ⟨[], [], rfl, splitOnChar_of_not_mem absent⟩
  | cons character rest inductionHypothesis =>
      obtain ⟨parts, last, before, later⟩ := inductionHypothesis
      rw [List.cons_append, splitOnChar, splitOnChar, before, later]
      split
      · exact ⟨[] :: parts, last, rfl, rfl⟩
      · cases parts with
        | nil => exact ⟨[], character :: last, rfl, rfl⟩
        | cons part parts => exact ⟨(character :: part) :: parts, last, rfl, rfl⟩

theorem splitOnChar_cons_self (separator : Char) (text : List Char) :
    splitOnChar separator (separator :: text) = [] :: splitOnChar separator text := by
  rw [splitOnChar, if_pos rfl]

/-- Joining the parts gives the text back. -/
theorem intercalate_splitOnChar (separator : Char) (text : List Char) :
    [separator].intercalate (splitOnChar separator text) = text := by
  induction text with
  | nil => rfl
  | cons character rest inductionHypothesis =>
      rw [splitOnChar]
      split
      · rename_i same
        obtain ⟨part, parts, found⟩ := List.exists_cons_of_ne_nil (splitOnChar_ne_nil separator rest)
        rw [found] at inductionHypothesis ⊢
        rw [List.intercalate_cons_cons, inductionHypothesis, same]
        rfl
      · split
        · rename_i nothing
          exact absurd nothing (splitOnChar_ne_nil separator rest)
        · rename_i part parts found
          rw [found] at inductionHypothesis
          rw [← inductionHypothesis]
          cases parts with
          | nil => rfl
          | cons _ _ => simp [List.intercalate_cons_cons]

/-- Trimming a text before it is split only trims its parts. -/
theorem map_trimList_splitOnChar {separator : Char} (noBlank : isBlank separator = false)
    (text : List Char) :
    (splitOnChar separator (trimList text)).map trimList =
      (splitOnChar separator text).map trimList := by
  have absent : ∀ {blanks : List Char}, Blanks blanks → separator ∉ blanks := by
    intro blanks areBlanks member
    have isBlank := areBlanks separator member
    rw [noBlank] at isBlank
    cases isBlank
  obtain ⟨before, after, blanksBefore, blanksAfter, same⟩ := padded_trimList text
  obtain ⟨parts, last, trimmed, longer⟩ :=
    exists_splitOnChar_append (trimList text) (absent blanksAfter)
  have whole : splitOnChar separator text = (parts ++ [last ++ after]).modifyHead (before ++ ·) := by
    rw [same, List.append_assoc, splitOnChar_append (absent blanksBefore), longer]
  rw [trimmed, whole]
  cases parts with
  | nil =>
      rw [List.nil_append, List.nil_append, List.modifyHead_cons, List.map_singleton,
        List.map_singleton, trimList_blanks_append blanksBefore,
        trimList_append_blanks _ blanksAfter]
  | cons part parts =>
      simp only [List.cons_append, List.modifyHead_cons, List.map_cons, List.map_append,
        List.map_nil, trimList_blanks_append blanksBefore, trimList_append_blanks _ blanksAfter]

/-- A text is cut at the first mark. -/
theorem cutAt_eq_some {mark : Char} {text before after : List Char} :
    cutAt mark text = some (before, after) ↔ mark ∉ before ∧ text = before ++ mark :: after := by
  induction text generalizing before with
  | nil => simp [cutAt]
  | cons character rest inductionHypothesis =>
      unfold cutAt
      split
      · rename_i isMark
        subst isMark
        constructor
        · rintro ⟨⟩
          exact ⟨List.not_mem_nil, rfl⟩
        · rintro ⟨absent, same⟩
          cases before with
          | nil => cases same; rfl
          | cons first before =>
              cases same
              exact absurd (List.mem_cons_self ..) absent
      · rename_i notMark
        rw [Option.map_eq_some_iff]
        constructor
        · rintro ⟨⟨first, last⟩, found, same⟩
          cases same
          obtain ⟨absent, rfl⟩ := inductionHypothesis.1 found
          exact ⟨by simp [absent, Ne.symm notMark], rfl⟩
        · rintro ⟨absent, same⟩
          cases before with
          | nil =>
              cases same
              exact absurd rfl notMark
          | cons first before =>
              cases same
              exact ⟨(before, after), inductionHypothesis.2
                ⟨fun member => absent (List.mem_cons_of_mem _ member), rfl⟩, rfl⟩

end ObjectPath.Text
