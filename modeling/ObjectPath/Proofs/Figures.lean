import Mathlib.Tactic.Positivity
import ObjectPath.Number.Printer
import ObjectPath.Proofs.Differences

/-!
# Texts of whole numbers

A whole number below the limit of exact integers is written by its own decimal digits.  Its
rounding interval is less than a whole number wide, so the shortest decimal that rounds to it is the
number itself without the zeros at its end, and the layout brings the zeros back.
-/

namespace ObjectPath.Number

/-! ## Zeros at the end -/

theorem toDigits_mul_pow {digits : Nat} (positive : 0 < digits) (zeros : Nat) :
    Nat.toDigits 10 (digits * 10 ^ zeros) =
      Nat.toDigits 10 digits ++ List.replicate zeros '0' := by
  induction zeros with
  | zero => rw [pow_zero, mul_one, List.replicate_zero, List.append_nil]
  | succ zeros inductionHypothesis =>
      have shifted : digits * 10 ^ (zeros + 1) = 10 * (digits * 10 ^ zeros) + 0 := by ring
      rw [shifted, ← Nat.toDigits_append_toDigits (by decide) (by positivity) (by decide),
        inductionHypothesis, List.append_assoc, List.replicate_succ']
      rfl

/-- The zeros that are taken away are counted. -/
theorem stripZeros_eq {digits : Nat} (positive : 0 < digits) (exponent : Int) :
    ∃ left zeros : Nat, stripZeros digits exponent = (left, exponent + zeros) ∧
      left * 10 ^ zeros = digits := by
  induction digits using Nat.strongRecOn generalizing exponent with
  | ind digits inductionHypothesis =>
      rw [stripZeros]
      split
      · rename_i ending
        obtain ⟨left, zeros, stripped, product⟩ :=
          inductionHypothesis (digits / 10) (by omega) (by omega) (exponent + 1)
        refine ⟨left, zeros + 1, ?_, ?_⟩
        · rw [stripped]
          push_cast
          ring_nf
        · rw [pow_succ, ← mul_assoc, product]
          omega
      · exact ⟨digits, 0, by simp, by simp⟩

/-! ## Intervals of whole numbers -/

/-- The interval of a whole number in units of which more than two make one. -/
structure Interval.Around (interval : Interval) (whole : Nat) : Prop where
  scale : interval.scale = 1
  divisor : 4 ≤ interval.divisor
  value : interval.value = whole * interval.divisor
  low : interval.low < interval.value
  nearLow : interval.value ≤ interval.low + 2
  high : interval.value < interval.high
  nearHigh : interval.high ≤ interval.value + 2

theorem around_roundingInterval {odd power : Nat} (positive : 0 < odd)
    (small : odd * 2 ^ power < 2 ^ 53) :
    (roundingInterval odd (-power)).Around (odd * 2 ^ power) := by
  have digits : odd.log2 + power < 53 := by
    rw [← Nat.pow_lt_pow_iff_right (a := 2) (by decide), pow_add]
    exact lt_of_le_of_lt (Nat.mul_le_mul_right _ (Nat.log2_self_le positive.ne')) small
  obtain ⟨fine, last⟩ : ∃ fine : Nat,
      max (-(-(power : Int)) - (53 - (odd.log2 + 1))) (-1074) = -fine :=
    ⟨(-max (-(-(power : Int)) - (53 - (odd.log2 + 1))) (-1074)).toNat, by omega⟩
  have mantissa : (-(-(power : Int)) - -(fine : Int)).toNat = power + fine := by omega
  have scale : (-(fine : Int) - 2).toNat = 0 := by omega
  have divisor : (2 - -(fine : Int)).toNat = fine + 2 := by omega
  have units : 4 * (odd * 2 ^ (power + fine)) = odd * 2 ^ power * 2 ^ (fine + 2) := by ring
  have manyUnits : 0 < odd * 2 ^ (power + fine) := by positivity
  simp only [roundingInterval, last, mantissa, scale, divisor, Nat.pow_eq]
  constructor
  · rfl
  · change 4 ≤ 2 ^ (fine + 2)
    rw [pow_add]
    exact Nat.le_mul_of_pos_left _ (by positivity)
  · exact units
  · dsimp only
    split <;> omega
  · dsimp only
    split <;> omega
  · dsimp only
    omega
  · exact le_refl _

/-- What is found in a range is found at the first place that has something. -/
theorem first_of_findSome?_range {α : Type} {find : Nat → Option α} {bound : Nat} {value : α}
    (found : (List.range bound).findSome? find = some value) :
    ∃ count < bound, find count = some value ∧ ∀ earlier < count, find earlier = none := by
  induction bound with
  | zero => cases found
  | succ bound inductionHypothesis =>
      rw [List.range_succ, List.findSome?_append, Option.or_eq_some_iff] at found
      rcases found with foundBelow | ⟨nowhere, foundAt⟩
      · obtain ⟨count, below, foundAt, first⟩ := inductionHypothesis foundBelow
        exact ⟨count, by omega, foundAt, first⟩
      · rw [List.findSome?_eq_none_iff] at nowhere
        rw [List.findSome?_singleton] at foundAt
        exact ⟨bound, by omega, foundAt, fun earlier below =>
          nowhere earlier (List.mem_range.2 below)⟩

/-- Multiples that are less than a unit apart are equal. -/
theorem eq_of_mul_near {first second divisor : Nat} (wide : 4 ≤ divisor)
    (near : first * divisor ≤ second * divisor + 2)
    (nearSecond : second * divisor ≤ first * divisor + 2) : first = second := by
  rcases Nat.lt_trichotomy first second with less | same | greater
  · have apart := Nat.mul_le_mul_right divisor less
    rw [Nat.succ_mul] at apart
    omega
  · exact same
  · have apart := Nat.mul_le_mul_right divisor greater
    rw [Nat.succ_mul] at apart
    omega

section Around

variable {interval : Interval} {whole : Nat} (around : interval.Around whole)
include around

/-- No other whole number lies in the interval. -/
theorem Interval.Around.holds_iff (digits grid : Nat) :
    interval.holds digits grid = true ↔ digits * 10 ^ grid = whole := by
  have exponent : (-(grid : Int)).toNat = 0 := by omega
  have inside : interval.holds digits grid = true ↔
      if interval.closed then interval.low ≤ digits * 10 ^ grid * interval.divisor ∧
          digits * 10 ^ grid * interval.divisor ≤ interval.high
        else interval.low < digits * 10 ^ grid * interval.divisor ∧
          digits * 10 ^ grid * interval.divisor < interval.high := by
    rw [Interval.holds, around.scale, exponent, Int.toNat_natCast]
    simp only [Nat.pow_eq, pow_zero, mul_one]
    split <;> simp
  rw [inside]
  obtain ⟨-, wide, value, low, nearLow, high, nearHigh⟩ := around
  constructor
  · intro isInside
    refine eq_of_mul_near wide ?_ ?_ <;> split at isInside <;> omega
  · rintro rfl
    split <;> omega

theorem Interval.Around.mul_of_candidate? {digits grid : Nat}
    (found : interval.candidate? grid = some digits) : digits * 10 ^ grid = whole := by
  rw [← around.holds_iff]
  unfold Interval.candidate? at found
  dsimp only at found
  split at found
  · rename_i holdsLower holdsUpper
    split at found
    · exact Option.some.inj found ▸ holdsUpper
    · exact Option.some.inj found ▸ holdsLower
  · rename_i holdsLower _
    exact Option.some.inj found ▸ holdsLower
  · rename_i _ holdsUpper
    exact Option.some.inj found ▸ holdsUpper
  · cases found

theorem Interval.Around.candidate?_zero : interval.candidate? 0 ≠ none := by
  have positive : 0 < interval.divisor := Nat.lt_of_lt_of_le (by decide) around.divisor
  have lower : interval.value * interval.scale * Nat.pow 10 (-(0 : Int)).toNat /
      (Nat.pow 10 (0 : Int).toNat * interval.divisor) = whole := by
    rw [around.scale, around.value]
    simpa using Nat.mul_div_cancel whole positive
  have holds : interval.holds whole 0 = true := (around.holds_iff whole 0).2 (by simp)
  unfold Interval.candidate?
  dsimp only
  rw [lower, holds]
  split
  · split <;> simp
  · simp
  · simp
  · rename_i fails _
    cases fails

theorem Interval.Around.leadingPlace_eq (positive : 0 < whole) :
    interval.leadingPlace = (Nat.toDigits 10 whole).length := by
  have positiveDivisor : 0 < interval.divisor := Nat.lt_of_lt_of_le (by decide) around.divisor
  rw [leadingPlace, around.scale, mul_one, around.value,
    if_pos (Nat.le_mul_of_pos_left _ positive), Nat.mul_div_cancel _ positiveDivisor]

/-- The first grid that has a candidate has the number itself on it. -/
theorem Interval.Around.findSome?_eq (positive : 0 < whole) (small : whole < 10 ^ 16) :
    ∃ digits grid : Nat, digits * 10 ^ grid = whole ∧
      ((List.range 18).findSome? fun count =>
        (interval.candidate? (interval.leadingPlace - (count + 1 : Nat))).map fun digits =>
          (digits, interval.leadingPlace - (count + 1 : Nat))) = some (digits, (grid : Int)) := by
  have place := around.leadingPlace_eq positive
  have short := (Nat.length_toDigits_le_iff (b := 10) (by decide) (by decide)).2 small
  have long := Nat.length_toDigits_pos (b := 10) (n := whole)
  rw [place]
  generalize (Nat.toDigits 10 whole).length = length at short long
  have last : length - ((length - 1 + 1 : Nat) : Int) = 0 := by omega
  obtain ⟨value, found⟩ : ∃ value, (List.range 18).findSome? (fun count =>
      (interval.candidate? (length - (count + 1 : Nat))).map fun digits =>
        (digits, (length : Int) - (count + 1 : Nat))) = some value := by
    rw [← Option.isSome_iff_exists, List.findSome?_isSome_iff]
    refine ⟨length - 1, List.mem_range.2 (by omega), ?_⟩
    rw [last, Option.isSome_map, Option.isSome_iff_ne_none]
    exact around.candidate?_zero
  obtain ⟨count, -, foundAt, first⟩ := first_of_findSome?_range found
  have notLater : count ≤ length - 1 := by
    by_contra later
    have nothing := first (length - 1) (by omega)
    rw [last, Option.map_eq_none_iff] at nothing
    exact around.candidate?_zero nothing
  obtain ⟨grid, isGrid⟩ : ∃ grid : Nat, (length : Int) - (count + 1 : Nat) = grid :=
    ⟨length - (count + 1), by omega⟩
  rw [isGrid, Option.map_eq_some_iff] at foundAt
  obtain ⟨digits, candidate, rfl⟩ := foundAt
  exact ⟨digits, grid, around.mul_of_candidate? candidate, found⟩

end Around

/-! ## Texts -/

theorem shortest_eq {odd power : Nat} (positive : 0 < odd) (small : odd * 2 ^ power < 2 ^ 53) :
    ∃ digits zeros : Nat, shortest odd (-power) = (digits, (zeros : Int)) ∧
      digits * 10 ^ zeros = odd * 2 ^ power := by
  have around := around_roundingInterval positive small
  have positiveWhole : 0 < odd * 2 ^ power := by positivity
  obtain ⟨digits, grid, product, found⟩ :=
    around.findSome?_eq positiveWhole (small.trans (by decide))
  have positiveDigits : 0 < digits := Nat.pos_of_mul_pos_right (product ▸ positiveWhole)
  obtain ⟨left, zeros, stripped, leftProduct⟩ := stripZeros_eq positiveDigits grid
  refine ⟨left, grid + zeros, ?_, ?_⟩
  · unfold shortest
    dsimp only
    rw [found]
    exact stripped
  · rw [pow_add, mul_comm (10 ^ grid), ← mul_assoc, leftProduct, product]

/-- Digits that end before the greatest place get their zeros back. -/
theorem layOut_eq {digits zeros : Nat} (positive : 0 < digits)
    (small : digits * 10 ^ zeros < 10 ^ 16) :
    layOut layout (Nat.toDigits 10 digits) ((Nat.toDigits 10 digits).length + zeros) =
      Nat.toDigits 10 (digits * 10 ^ zeros) := by
  have short := (Nat.length_toDigits_le_iff (b := 10) (by decide) (by decide)).2 small
  rw [toDigits_mul_pow positive, List.length_append, List.length_replicate] at short
  have count : ((Nat.toDigits 10 digits).length + zeros - (Nat.toDigits 10 digits).length : Int).toNat
      = zeros := by omega
  have fits : (decide (((Nat.toDigits 10 digits).length : Int) ≤
      (Nat.toDigits 10 digits).length + zeros) &&
      decide (((Nat.toDigits 10 digits).length + zeros : Int) ≤ layout.greatestPlace)) = true := by
    rw [Bool.and_eq_true, decide_eq_true_eq, decide_eq_true_eq]
    change _ ∧ _ ≤ (21 : Int)
    omega
  unfold layOut
  dsimp only
  rw [if_pos fits, count, toDigits_mul_pow positive]

theorem repr_eq (value : Int) : (Int.repr value).toList =
    if value < 0 then '-' :: Nat.toDigits 10 value.natAbs else Nat.toDigits 10 value.natAbs := by
  cases value with
  | ofNat value => exact Nat.toList_repr
  | negSucc value =>
      rw [if_pos (Int.negSucc_lt_zero value), Int.repr, String.toList_append, Nat.toList_repr]
      rfl

theorem textOfFraction_eq {odd : Int} {power : Nat} (nonzero : odd ≠ 0)
    (small : (odd * 2 ^ power).natAbs < 2 ^ 53) :
    textOfFraction odd (-power) = (Int.repr (odd * 2 ^ power)).toList := by
  have positivePower : (0 : Int) < 2 ^ power := by positivity
  have sign : odd * 2 ^ power < 0 ↔ odd < 0 :=
    ⟨fun product => neg_of_mul_neg_left product positivePower.le,
      fun isNegative => mul_neg_of_neg_of_pos isNegative positivePower⟩
  have size : (odd * 2 ^ power).natAbs = odd.natAbs * 2 ^ power := by
    rw [Int.natAbs_mul, Int.natAbs_pow]
    rfl
  rw [size] at small
  obtain ⟨digits, zeros, found, product⟩ := shortest_eq (Int.natAbs_pos.2 nonzero) small
  have positive : 0 < digits := by
    refine Nat.pos_of_mul_pos_right (b := 10 ^ zeros) ?_
    rw [product]
    have := Int.natAbs_pos.2 nonzero
    positivity
  unfold textOfFraction
  dsimp only
  rw [found]
  dsimp only
  rw [layOut_eq positive (product ▸ small.trans (by decide)), product, repr_eq, size]
  simp only [sign]

/-- Small whole numbers are written by their decimal digits. -/
theorem text_ofInt {value : Int} (small : value.natAbs < 2 ^ 53) :
    (ofInt value).text = Int.repr value := by
  by_cases nothing : value = 0
  · rw [nothing]
    rfl
  · obtain ⟨odd, power, isOdd, rfl, same⟩ := exists_ofOdd nothing
    rw [ofInt, same, text, textOfFraction_eq (left_ne_zero_of_mul nothing) small,
      String.ofList_toList]

end ObjectPath.Number
