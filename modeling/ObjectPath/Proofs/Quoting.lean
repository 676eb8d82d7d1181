import ObjectPath.Proofs.Ordering
import ObjectPath.Text.Quoted

/-!
# Quoted texts

A quoted text tells the text that it quotes, and where it ends.  Each escape says by its first
characters what kind of escape it is, no escape starts like a character that stands for itself, and
only the closing quote stands without a mark before it.
-/

namespace ObjectPath.Text

/-! ## Escapes of characters -/

/-- The character that a short escape stands for. -/
def shortEscape? : Char → Option Char
  | '"' => some '"'
  | '\\' => some '\\'
  | 'b' => some (Char.ofNat 8)
  | 't' => some (Char.ofNat 9)
  | 'n' => some (Char.ofNat 10)
  | 'f' => some (Char.ofNat 12)
  | 'r' => some (Char.ofNat 13)
  | _ => none

/-- What the escape of a character is: the character itself, a mark with one letter or a mark with
the number of a unit. -/
inductive Escapes : Char → List Char → Prop
  | plain {character : Char} : character ≠ '"' → character ≠ '\\' → half? character = none →
      Escapes character [character]
  | short {mark character : Char} : shortEscape? mark = some character →
      Escapes character ['\\', mark]
  | number {unit : Nat} : unit < 65536 → Escapes (unitChar unit) (numberEscape unit)

theorem escapes_escape (character : Char) : Escapes character (escape character) := by
  have named : ∀ {code : Nat}, character.toNat = code → character = Char.ofNat code := by
    rintro _ rfl
    exact character.ofNat_toNat.symm
  unfold escape
  dsimp only
  split
  · rename_i isQuote
    rw [isQuote]
    exact .short rfl
  split
  · rename_i isMark
    rw [isMark]
    exact .short rfl
  split
  · rename_i code
    exact named code ▸ .short rfl
  split
  · rename_i code
    exact named code ▸ .short rfl
  split
  · rename_i code
    exact named code ▸ .short rfl
  split
  · rename_i code
    exact named code ▸ .short rfl
  split
  · rename_i code
    exact named code ▸ .short rfl
  split
  · rename_i control
    have single : unitChar character.toNat = character := by
      rw [unitChar, if_neg (by simp; omega), Char.ofNat_toNat]
    have escaped := Escapes.number (show character.toNat < 65536 by omega)
    rwa [single] at escaped
  · rename_i notQuote notMark _ _ _ _ _ _
    split
    · rename_i unit isHalf
      obtain ⟨low, high, code⟩ := half?_eq_some isHalf
      have single : unitChar unit = character := by
        rw [unitChar_of_half low high, halfChar, ← code, Char.ofNat_toNat]
      have escaped := Escapes.number (show unit < 65536 by omega)
      rwa [single] at escaped
    · rename_i noHalf
      exact .plain notQuote notMark noHalf

theorem hexDigit_injective {left right : Nat} (small : left < 16) (smallRight : right < 16)
    (same : hexDigit left = hexDigit right) : left = right := by
  have apart : ∀ left < 16, ∀ right < 16, hexDigit left = hexDigit right → left = right := by
    decide
  exact apart left small right smallRight same

theorem numberEscape_injective {left right : Nat} (small : left < 65536)
    (smallRight : right < 65536) (same : numberEscape left = numberEscape right) :
    left = right := by
  simp only [numberEscape, List.cons.injEq, true_and, and_true] at same
  obtain ⟨first, second, third, fourth⟩ := same
  have first := hexDigit_injective (by omega) (by omega) first
  have second := hexDigit_injective (by omega) (by omega) second
  have third := hexDigit_injective (by omega) (by omega) third
  have fourth := hexDigit_injective (by omega) (by omega) fourth
  omega

/-- The escapes of characters are told apart by how they start, and tell their characters. -/
theorem Escapes.unique {character other : Char} {escaped escapedOther rest onward : List Char}
    (left : Escapes character escaped) (right : Escapes other escapedOther)
    (same : escaped ++ rest = escapedOther ++ onward) : character = other ∧ rest = onward := by
  cases left with
  | plain notQuote notMark noHalf =>
      cases right with
      | plain => exact List.cons.inj same
      | short => exact absurd (List.cons.inj same).1 notMark
      | number => exact absurd (List.cons.inj same).1 notMark
  | short isMark =>
      cases right with
      | plain _ notMark => exact absurd (List.cons.inj same).1.symm notMark
      | short isOther =>
          obtain ⟨rfl, rest⟩ := List.cons.inj (List.cons.inj same).2
          exact ⟨Option.some.inj (isMark.symm.trans isOther), rest⟩
      | number =>
          obtain ⟨rfl, _⟩ := List.cons.inj (List.cons.inj same).2
          cases isMark
  | number small =>
      cases right with
      | plain _ notMark => exact absurd (List.cons.inj same).1.symm notMark
      | short isMark =>
          obtain ⟨rfl, _⟩ := List.cons.inj (List.cons.inj same).2
          cases isMark
      | number smallRight =>
          obtain ⟨escape, rest⟩ := List.append_inj same rfl
          exact ⟨congrArg unitChar (numberEscape_injective small smallRight escape), rest⟩

/-! ## Escapes of groups -/

/-- What stands for one character of a text: one character, or a pair of held halves. -/
inductive Group : List Char → Prop
  | single (character : Char) : Group [character]
  | pair {first second : Char} : isFirstHalf first = true → isSecondHalf second = true →
      Group [first, second]

theorem half?_ne_none_of_isFirstHalf {character : Char} (isFirst : isFirstHalf character = true) :
    half? character ≠ none := by
  intro noHalf
  rw [isFirstHalf, noHalf] at isFirst
  cases isFirst

theorem addCharacter_groups (character : Char) {groups : List (List Char)}
    (isGroup : ∀ group ∈ groups, Group group) :
    ∀ group ∈ addCharacter character groups, Group group := by
  unfold addCharacter
  split
  · split
    · rename_i pair
      obtain ⟨isFirst, isSecond⟩ := Bool.and_eq_true_iff.1 pair
      intro group member
      rcases List.mem_cons.1 member with rfl | member
      · exact .pair isFirst isSecond
      · exact isGroup group (List.mem_cons_of_mem _ member)
    · exact List.forall_mem_cons.2 ⟨.single character, isGroup⟩
  · exact List.forall_mem_cons.2 ⟨.single character, isGroup⟩

theorem group_of_mem_characters {text group : List Char} (member : group ∈ characters text) :
    Group group := by
  induction text generalizing group with
  | nil => cases member
  | cons character rest inductionHypothesis =>
      exact addCharacter_groups character (fun _ => inductionHypothesis) group member

/-- The groups of a text come to the text again. -/
theorem flatten_characters (text : List Char) : (characters text).flatten = text := by
  induction text with
  | nil => rfl
  | cons character rest inductionHypothesis =>
      have unfolded : characters (character :: rest) = addCharacter character (characters rest) :=
        rfl
      rw [unfolded]
      generalize characters rest = groups at inductionHypothesis ⊢
      unfold addCharacter
      split
      · split
        · exact congrArg (character :: ·) inductionHypothesis
        · exact congrArg (character :: ·) inductionHypothesis
      · exact congrArg (character :: ·) inductionHypothesis

/-- The escape of a group does not start like the end of a text. -/
theorem escapeCharacter_ne_quote {group rest onward : List Char} (isGroup : Group group) :
    escapeCharacter group ++ rest ≠ '"' :: onward := by
  intro same
  cases isGroup with
  | single character =>
      have escaped := escapes_escape character
      rw [escapeCharacter] at same
      generalize escape character = text at escaped same
      cases escaped with
      | plain notQuote => exact notQuote (List.cons.inj same).1
      | short => cases (List.cons.inj same).1
      | number => cases (List.cons.inj same).1
  | @pair first second isFirst isSecond =>
      have isQuote : first = '"' := (List.cons.inj same).1
      rw [isQuote] at isFirst
      cases isFirst

/-- A pair of held halves does not start like the escape of a character. -/
theorem pair_ne_escape {first second : Char} {character : Char} {rest onward : List Char}
    (isFirst : isFirstHalf first = true) :
    first :: second :: rest ≠ escape character ++ onward := by
  intro same
  have escaped := escapes_escape character
  generalize escape character = text at escaped same
  cases escaped with
  | plain _ _ noHalf =>
      rw [(List.cons.inj same).1] at isFirst
      exact half?_ne_none_of_isFirstHalf isFirst noHalf
  | short =>
      rw [(List.cons.inj same).1] at isFirst
      cases isFirst
  | number =>
      rw [(List.cons.inj same).1] at isFirst
      cases isFirst

theorem escapeCharacter_unique {group other rest onward : List Char} (isGroup : Group group)
    (isOther : Group other)
    (same : escapeCharacter group ++ rest = escapeCharacter other ++ onward) :
    group = other ∧ rest = onward := by
  cases isGroup with
  | single character =>
      cases isOther with
      | single otherCharacter =>
          obtain ⟨rfl, rest⟩ :=
            (escapes_escape character).unique (escapes_escape otherCharacter) same
          exact ⟨rfl, rest⟩
      | pair isFirst isSecond => exact absurd same.symm (pair_ne_escape isFirst)
  | @pair first second isFirst isSecond =>
      cases isOther with
      | single character => exact absurd same (pair_ne_escape isFirst)
      | pair isFirstOther isSecondOther =>
          obtain ⟨isSame, sameRest⟩ := List.cons.inj same
          obtain ⟨isSameSecond, rest⟩ := List.cons.inj sameRest
          rw [isSame, isSameSecond]
          exact ⟨rfl, rest⟩

/-! ## Quoted texts -/

theorem flatMap_escape_unique {groups others : List (List Char)} {rest onward : List Char}
    (isGroup : ∀ group ∈ groups, Group group) (isOther : ∀ group ∈ others, Group group)
    (same : groups.flatMap escapeCharacter ++ '"' :: rest =
      others.flatMap escapeCharacter ++ '"' :: onward) : groups = others ∧ rest = onward := by
  induction groups generalizing others with
  | nil =>
      cases others with
      | nil => exact ⟨rfl, (List.cons.inj same).2⟩
      | cons other others =>
          rw [List.flatMap_cons, List.append_assoc] at same
          exact absurd same.symm
            (escapeCharacter_ne_quote (isOther other (List.mem_cons_self ..)))
  | cons group groups inductionHypothesis =>
      rw [List.forall_mem_cons] at isGroup
      cases others with
      | nil =>
          rw [List.flatMap_cons, List.append_assoc] at same
          exact absurd same (escapeCharacter_ne_quote isGroup.1)
      | cons other others =>
          rw [List.forall_mem_cons] at isOther
          rw [List.flatMap_cons, List.flatMap_cons, List.append_assoc, List.append_assoc] at same
          obtain ⟨rfl, sameRest⟩ := escapeCharacter_unique isGroup.1 isOther.1 same
          obtain ⟨rfl, rest⟩ := inductionHypothesis isGroup.2 isOther.2 sameRest
          exact ⟨rfl, rest⟩

/-- A quoted text tells the text that it quotes, and what comes after it. -/
theorem quoteList_unique {text other rest onward : List Char}
    (same : quoteList text ++ rest = quoteList other ++ onward) : text = other ∧ rest = onward := by
  simp only [quoteList, List.cons_append, List.append_assoc, List.nil_append] at same
  obtain ⟨groups, rest⟩ := flatMap_escape_unique (fun _ => group_of_mem_characters)
    (fun _ => group_of_mem_characters) (List.cons.inj same).2
  refine ⟨?_, rest⟩
  rw [← flatten_characters text, groups, flatten_characters]

end ObjectPath.Text
