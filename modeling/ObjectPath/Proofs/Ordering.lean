import ObjectPath.Text.Units

/-!
# Texts in order

The units of a text determine the text up to what its settled form is.  So settled texts are the
same when their units are, and a list of different settled texts that is sorted by units rises
strictly.
-/

namespace ObjectPath.Text

/-! ## Settled texts of units -/

/-- The character that a unit is by itself. -/
def unitChar (unit : Nat) : Char :=
  if 0xD800 ≤ unit && unit < 0xE000 then halfChar unit else Char.ofNat unit

theorem half?_eq_some {character : Char} {unit : Nat} (isHalf : half? character = some unit) :
    0xD800 ≤ unit ∧ unit < 0xE000 ∧ character.toNat = 0x100000 + unit := by
  simp only [half?, Option.ite_none_right_eq_some, Bool.and_eq_true, decide_eq_true_eq,
    Option.some.injEq] at isHalf
  omega

theorem half?_halfChar {unit : Nat} (low : 0xD800 ≤ unit) (high : unit < 0xE000) :
    half? (halfChar unit) = some unit := by
  have valid : (0x100000 + unit).isValidChar := Or.inr ⟨by omega, by omega⟩
  have code : (halfChar unit).toNat = 0x100000 + unit := by
    rw [halfChar, Char.ofNat, dif_pos valid]
    rfl
  simp [half?, code]
  omega

theorem unitChar_of_half {unit : Nat} (low : 0xD800 ≤ unit) (high : unit < 0xE000) :
    unitChar unit = halfChar unit := by
  simp [unitChar, low, high]

/-- A character that holds no half is not paired. -/
theorem attach_of_none {character : Char} (noHalf : half? character = none) (text : List Char) :
    attach character text = character :: text := by
  unfold attach
  rw [noHalf]

/-- A second half is not paired with what follows it. -/
theorem attach_second {unit : Nat} (low : 0xDC00 ≤ unit) (high : unit < 0xE000)
    (text : List Char) : attach (halfChar unit) text = halfChar unit :: text := by
  have isHalf := half?_halfChar (by omega : 0xD800 ≤ unit) high
  have notFirst : ¬ unit < 0xDC00 := by omega
  unfold attach
  rw [isHalf]
  cases text with
  | nil => rfl
  | cons next rest => cases other : half? next <;> simp [other, notFirst]

theorem attach_pair {first second : Nat} {left right : Char} (isLeft : half? left = some first)
    (isRight : half? right = some second) (low : first < 0xDC00) (high : 0xDC00 ≤ second)
    (apart : half? (charOfPair first second) = none) (text : List Char) :
    attach left (right :: text) = charOfPair first second :: text := by
  unfold attach
  rw [isLeft]
  simp [isRight, low, high, apart]

theorem pairOf_bounds {code : Nat} (low : 0x10000 ≤ code) (high : code < 0x110000) :
    0xD800 ≤ (pairOf code).1 ∧ (pairOf code).1 < 0xDC00 ∧
      0xDC00 ≤ (pairOf code).2 ∧ (pairOf code).2 < 0xE000 := by
  simp only [pairOf]
  omega

theorem charOfPair_pairOf {character : Char} (low : 0x10000 ≤ character.toNat) :
    charOfPair (pairOf character.toNat).1 (pairOf character.toNat).2 = character := by
  have code : 0x10000 + ((pairOf character.toNat).1 - 0xD800) * 0x400 +
      ((pairOf character.toNat).2 - 0xDC00) = character.toNat := by
    simp only [pairOf]
    omega
  rw [charOfPair, code, Char.ofNat_toNat]

/-- The halves of a pair meet and are the character of the pair, if that holds no half itself. -/
theorem foldr_attach_pair {first second : Nat} (lowFirst : 0xD800 ≤ first)
    (highFirst : first < 0xDC00) (lowSecond : 0xDC00 ≤ second) (highSecond : second < 0xE000)
    (apart : half? (charOfPair first second) = none) (text : List Char) :
    ([first, second].map unitChar).foldr attach text = charOfPair first second :: text := by
  have isFirst := half?_halfChar lowFirst (by omega)
  have isSecond := half?_halfChar (by omega : 0xD800 ≤ second) highSecond
  simp only [List.map_cons, List.map_nil, List.foldr_cons, List.foldr_nil]
  rw [unitChar_of_half lowFirst (by omega), unitChar_of_half (by omega) highSecond,
    attach_second lowSecond highSecond, attach_pair isFirst isSecond highFirst lowSecond apart]

/-- The units of a character, taken one by one, come to the character again. -/
theorem foldr_attach_charUnits (character : Char) (text : List Char) :
    ((charUnits character).map unitChar).foldr attach text = attach character text := by
  have valid : character.toNat < 0xD800 ∨ 0xDFFF < character.toNat ∧ character.toNat < 0x110000 :=
    character.valid
  by_cases first : character.toNat < 0x10000
  · have units : charUnits character = [character.toNat] := by simp [charUnits, first]
    have single : unitChar character.toNat = character := by
      rw [unitChar, if_neg (by simp; omega), Char.ofNat_toNat]
    simp [units, single]
  · have low : 0x10000 ≤ character.toNat := Nat.not_lt.1 first
    cases isHalf : half? character with
    | some unit =>
        obtain ⟨lowHalf, highHalf, code⟩ := half?_eq_some isHalf
        have units : charUnits character = [unit] := by simp [charUnits, first, isHalf]
        have single : unitChar unit = character := by
          rw [unitChar_of_half lowHalf highHalf, halfChar, ← code, Char.ofNat_toNat]
        simp [units, single]
    | none =>
        obtain ⟨lowFirst, highFirst, lowSecond, highSecond⟩ :=
          pairOf_bounds low (by omega : character.toNat < 0x110000)
        have units : charUnits character =
            [(pairOf character.toNat).1, (pairOf character.toNat).2] := by
          simp [charUnits, first, isHalf]
        have pair := charOfPair_pairOf low
        rw [units, foldr_attach_pair lowFirst highFirst lowSecond highSecond (by rw [pair, isHalf]),
          pair, attach_of_none isHalf]

theorem settleList_cons (character : Char) (text : List Char) :
    settleList (character :: text) = attach character (settleList text) :=
  List.foldr_cons ..

theorem settleList_eq (text : List Char) :
    settleList text = ((text.flatMap charUnits).map unitChar).foldr attach [] := by
  induction text with
  | nil => rfl
  | cons character rest inductionHypothesis =>
      rw [settleList_cons, List.flatMap_cons, List.map_append, List.foldr_append,
        ← inductionHypothesis, foldr_attach_charUnits]

theorem settleList_of_no_half {text : List Char}
    (noHalf : ∀ character ∈ text, half? character = none) : settleList text = text := by
  induction text with
  | nil => rfl
  | cons character rest inductionHypothesis =>
      have later := inductionHypothesis fun other isThere =>
        noHalf other (List.mem_cons_of_mem _ isThere)
      rw [settleList_cons, later, attach_of_none (noHalf character List.mem_cons_self)]

theorem settle_eq (text : String) : settle text = String.ofList (settleList text.toList) := by
  unfold settle
  split
  · rfl
  · rename_i noHalf
    rw [settleList_of_no_half (by simpa using noHalf), String.ofList_toList]

/-- Texts of the same units have one settled form. -/
theorem settle_eq_of_units {left right : String} (same : units left = units right) :
    settle left = settle right := by
  rw [settle_eq, settle_eq, settleList_eq, settleList_eq]
  exact congrArg (fun units => String.ofList ((units.map unitChar).foldr attach [])) same

/-! ## Sorted lists -/

section Sorted

variable {α : Type} {name : α → String} {items : List α}

theorem sortByUnits_perm (name : α → String) (items : List α) :
    (sortByUnits name items).Perm items :=
  List.mergeSort_perm items _

theorem sortByUnits_rises (name : α → String) (items : List α) :
    (sortByUnits name items).Pairwise fun left right =>
      unitsBefore (name right) (name left) = false := by
  have sorted : (sortByUnits name items).Pairwise fun left right =>
      (!unitsBefore (name right) (name left)) = true := by
    apply List.pairwise_mergeSort
    · intro first second third
      simp only [unitsBefore, Bool.not_eq_true', decide_eq_false_iff_not, List.not_lt]
      exact List.le_trans
    · intro first second
      simp only [unitsBefore, Bool.or_eq_true, Bool.not_eq_true', decide_eq_false_iff_not,
        List.not_lt]
      exact List.le_total _ _
  exact sorted.imp fun notBefore => by simpa using notBefore

/-- Different settled names that are sorted rise strictly. -/
theorem sortByUnits_strict (settled : ∀ item ∈ items, settle (name item) = name item)
    (distinct : (items.map name).Nodup) :
    ((sortByUnits name items).map name).Pairwise fun left right =>
      unitsBefore left right = true := by
  have perm := sortByUnits_perm name items
  have apart : ((sortByUnits name items).map name).Nodup := (perm.map name).nodup_iff.2 distinct
  rw [List.pairwise_map]
  refine ((sortByUnits_rises name items).and (List.pairwise_map.1 apart)).imp_of_mem ?_
  intro left right isLeft isRight both
  obtain ⟨notAfter, different⟩ := both
  have unlike : units (name left) ≠ units (name right) := by
    intro same
    apply different
    rw [← settled left (perm.mem_iff.1 isLeft), settle_eq_of_units same,
      settled right (perm.mem_iff.1 isRight)]
  simp only [unitsBefore, decide_eq_false_iff_not, decide_eq_true_eq] at notAfter ⊢
  apply Decidable.byContradiction
  intro notBefore
  exact unlike (List.le_antisymm (List.not_lt.1 notAfter) (List.not_lt.1 notBefore))

end Sorted

end ObjectPath.Text
