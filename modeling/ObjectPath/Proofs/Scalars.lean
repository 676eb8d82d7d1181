import Mathlib
import ObjectPath.Format
import ObjectPath.Proofs.Figures
import ObjectPath.Proofs.Quoting

/-!
# Texts of scalars

Scalars are what data is made of besides its objects.  The text of a scalar is a word, unless the
scalar is a text itself, and what comes after a word does not go on with it.  Scalars have different
texts: those of different kinds end differently.
-/

namespace ObjectPath.Format

/-! ## Scalars -/

/-- What data is made of besides its objects. -/
inductive Scalar : Value → Prop
  | undefined : Scalar .undefined
  | null : Scalar .null
  | boolean (value : Bool) : Scalar (.boolean value)
  | integer {value : Int} : value.natAbs < 2 ^ 53 → Scalar (.number (.ofInt value))
  | negativeZero : Scalar (.number .negativeZero)
  | bigint (value : Int) : Scalar (.bigint value)
  | string (text : String) : Scalar (.string text)

theorem number_ofInt {value : Int} (small : value.natAbs < 2 ^ 53) :
    number (.ofInt value) = Int.repr value :=
  Number.text_ofInt small

/-! ## Words -/

/-- Whether a character may stand in the word for a scalar. -/
def isScalarCharacter (character : Char) : Bool :=
  character.isAlphanum || character == '-'

/-- Whether a character may stand in a word. -/
def isWordCharacter (character : Char) : Bool :=
  isScalarCharacter character || character == '_' || character == '$'

/-- What comes after a word does not go on with it. -/
def Ends (rest : List Char) : Prop :=
  ∀ first ∈ rest.head?, isWordCharacter first = false

theorem ends_nil : Ends [] := by
  rintro _ ⟨⟩

theorem ends_cons {first : Char} {rest : List Char} (ends : isWordCharacter first = false) :
    Ends (first :: rest) := by
  rintro _ ⟨⟩
  exact ends

theorem word_unique {word other rest onward : List Char} (isWord : word.all isWordCharacter = true)
    (isOther : other.all isWordCharacter = true) (ends : Ends rest) (endsOther : Ends onward)
    (same : word ++ rest = other ++ onward) : word = other ∧ rest = onward := by
  induction word generalizing other with
  | nil =>
      cases other with
      | nil => exact ⟨rfl, same⟩
      | cons first other =>
          rw [List.nil_append] at same
          rw [List.all_cons, Bool.and_eq_true] at isOther
          have noWord := ends first (same ▸ rfl)
          rw [isOther.1] at noWord
          cases noWord
  | cons first word inductionHypothesis =>
      rw [List.all_cons, Bool.and_eq_true] at isWord
      cases other with
      | nil =>
          rw [List.nil_append] at same
          have noWord := endsOther first (same ▸ rfl)
          rw [isWord.1] at noWord
          cases noWord
      | cons firstOther other =>
          rw [List.all_cons, Bool.and_eq_true] at isOther
          obtain ⟨rfl, sameRest⟩ := List.cons.inj same
          obtain ⟨rfl, rest⟩ := inductionHypothesis isWord.2 isOther.2 sameRest
          exact ⟨rfl, rest⟩

theorem all_isScalarCharacter_toDigits (value : Nat) :
    (Nat.toDigits 10 value).all isScalarCharacter = true := by
  rw [List.all_eq_true]
  intro digit member
  have isDigit := Nat.isDigit_of_mem_toDigits (by decide) (by decide) member
  rw [isScalarCharacter, Char.isAlphanum, isDigit]
  simp

theorem all_isScalarCharacter_repr (value : Int) :
    (Int.repr value).toList.all isScalarCharacter = true := by
  rw [Number.repr_eq]
  split
  · exact all_isScalarCharacter_toDigits _
  · exact all_isScalarCharacter_toDigits _

theorem repr_ne_nil (value : Int) : (Int.repr value).toList ≠ [] := by
  rw [Number.repr_eq]
  split
  · exact List.cons_ne_nil _ _
  · exact Nat.toDigits_ne_nil

/-- The text of a scalar is a word, unless the scalar is a text itself. -/
theorem Scalar.word_or_quoted {value : Value} {text : String} (scalar : Scalar value)
    (isText : simple? value = some text) :
    (text.toList ≠ [] ∧ text.toList.all isScalarCharacter = true) ∨
      ∃ quoted : String, value = .string quoted ∧ text.toList = Text.quoteList quoted.toList := by
  cases scalar with
  | undefined =>
      cases isText
      exact .inl (by decide)
  | null =>
      cases isText
      exact .inl (by decide)
  | boolean value =>
      cases value <;>
      · cases isText
        exact .inl (by decide)
  | integer small =>
      rw [simple?, number_ofInt small] at isText
      cases isText
      exact .inl ⟨repr_ne_nil _, all_isScalarCharacter_repr _⟩
  | negativeZero =>
      cases isText
      exact .inl (by decide)
  | bigint value =>
      cases isText
      refine .inl ⟨?_, ?_⟩
      · simp
      · rw [String.toList_append, List.all_append, all_isScalarCharacter_repr]
        decide
  | string quoted =>
      cases isText
      exact .inr ⟨quoted, rfl, String.toList_ofList⟩

/-- The last character of a text, any digit standing for all of them. -/
def ending? (text : String) : Option Char :=
  text.toList.getLast?.map fun last => if last.isDigit then '0' else last

/-- What the texts of the scalars of a kind end with. -/
def kindEnding? : Value → Option Char
  | .undefined => some 'd'
  | .null => some 'l'
  | .boolean _ => some 'e'
  | .number _ => some '0'
  | .bigint _ => some 'n'
  | .string _ => some '"'
  | .symbol _ _ => none
  | .object _ => none

theorem ending?_append {text suffix : String} (nonempty : suffix.toList ≠ []) :
    ending? (text ++ suffix) = ending? suffix := by
  rw [ending?, String.toList_append, List.getLast?_append_of_ne_nil _ nonempty]
  rfl

theorem ending?_natRepr (value : Nat) : ending? (Nat.repr value) = some '0' := by
  rw [ending?, Nat.toList_repr, List.getLast?_eq_some_getLast Nat.toDigits_ne_nil, Option.map_some,
    if_pos (Nat.isDigit_of_mem_toDigits (by decide) (by decide) (List.getLast_mem _))]

theorem ending?_repr (value : Int) : ending? (Int.repr value) = some '0' := by
  cases value with
  | ofNat value => exact ending?_natRepr value
  | negSucc value =>
      have digits : (Nat.repr value.succ).toList ≠ [] := by
        rw [Nat.toList_repr]
        exact Nat.toDigits_ne_nil
      rw [Int.repr, ending?_append digits, ending?_natRepr]

/-- The text of a scalar tells its kind by how it ends. -/
theorem Scalar.ending?_eq {value : Value} {text : String} (scalar : Scalar value)
    (isText : simple? value = some text) : ending? text = kindEnding? value := by
  cases scalar with
  | undefined =>
      cases isText
      decide
  | null =>
      cases isText
      decide
  | boolean value =>
      cases value <;>
      · cases isText
        decide
  | integer small =>
      rw [simple?, number_ofInt small] at isText
      cases isText
      exact ending?_repr _
  | negativeZero =>
      cases isText
      decide
  | bigint value =>
      cases isText
      exact ending?_append (by decide)
  | string quoted =>
      cases isText
      rw [ending?, Text.quote, String.toList_ofList, Text.quoteList, ← List.cons_append,
        List.getLast?_append_of_ne_nil _ (by decide)]
      rfl

theorem repr_ne_negativeZero (value : Int) : Int.repr value ≠ "-0" := by
  intro same
  have characters := congrArg String.toList same
  rw [Number.repr_eq] at characters
  split at characters
  · rename_i isNegative
    have zero : Nat.repr value.natAbs = Nat.repr 0 := by
      rw [← String.toList_inj, Nat.toList_repr, Nat.toList_repr]
      exact (List.cons.inj characters).2
    have nothing := Nat.repr_injective zero
    omega
  · have isDigit := Nat.isDigit_of_mem_toDigits (b := 10) (n := value.natAbs) (c := '-') (by decide)
      (by decide) (characters ▸ List.mem_cons_self ..)
    cases isDigit

/-- Scalars have different texts. -/
theorem Scalar.eq_of_text {value other : Value} {text : String} (scalar : Scalar value)
    (scalarOther : Scalar other) (isText : simple? value = some text)
    (isTextOther : simple? other = some text) : value = other := by
  have sameKind : kindEnding? value = kindEnding? other :=
    (scalar.ending?_eq isText).symm.trans (scalarOther.ending?_eq isTextOther)
  have same := isText.trans isTextOther.symm
  cases scalar with
  | undefined => cases scalarOther <;> first | rfl | cases sameKind
  | null => cases scalarOther <;> first | rfl | cases sameKind
  | boolean value =>
      cases scalarOther with
      | boolean other => cases value <;> cases other <;> first | rfl | simp [simple?] at same
      | _ => cases sameKind
  | @integer value small =>
      cases scalarOther with
      | integer smallOther =>
          rw [simple?, simple?, number_ofInt small, number_ofInt smallOther] at same
          rw [Int.repr_injective (Option.some.inj same)]
      | negativeZero =>
          rw [simple?, number_ofInt small] at same
          exact absurd (Option.some.inj same) (repr_ne_negativeZero value)
      | _ => cases sameKind
  | negativeZero =>
      cases scalarOther with
      | @integer other smallOther =>
          rw [simple?, simple?, number_ofInt smallOther] at same
          exact absurd (Option.some.inj same).symm (repr_ne_negativeZero other)
      | negativeZero => rfl
      | _ => cases sameKind
  | bigint value =>
      cases scalarOther with
      | bigint other =>
          have digits := congrArg String.toList (Option.some.inj same)
          rw [String.toList_append, String.toList_append, List.append_cancel_right_eq,
            String.toList_inj] at digits
          rw [Int.repr_injective digits]
      | _ => cases sameKind
  | string quoted =>
      cases scalarOther with
      | string other =>
          have characters := congrArg String.toList (Option.some.inj same)
          rw [Text.quote, Text.quote, String.toList_ofList, String.toList_ofList] at characters
          have texts := Text.quoteList_unique (congrArg (· ++ []) characters)
          rw [String.toList_inj.1 texts.1]
      | _ => cases sameKind

end ObjectPath.Format
