import Mathlib.Algebra.Order.Ring.Int
import Mathlib.Data.Rat.Cast.Defs
import Mathlib.Tactic.Ring
import ObjectPath.Number.Basic

/-!
# Differences of whole numbers

A difference of whole numbers is rounded like any other one.  Below `2 ^ 53` rounding changes
nothing, and what is not below stays so; so what is left of a size below that bound is in its range
exactly if the exact difference is, and is then the exact difference.
-/

namespace ObjectPath.Number

/-! ## Whole numbers -/

theorem ofIntWithPrec_neg_natCast (mantissa : Int) (exponent : Nat) :
    Dyadic.ofIntWithPrec mantissa (-exponent) = Dyadic.ofInt (mantissa * 2 ^ exponent) := by
  rw [← Dyadic.toRat_inj, Dyadic.toRat_ofIntWithPrec_eq_mul_two_pow, neg_neg, zpow_natCast]
  change _ = Dyadic.toRat ((mantissa * 2 ^ exponent : Int) : Dyadic)
  rw [Dyadic.toRat_intCast]
  push_cast
  rfl

theorem ofIntWithPrec_mul_two_pow (value : Int) (precision : Nat) :
    Dyadic.ofIntWithPrec (value * 2 ^ precision) precision = Dyadic.ofInt value := by
  rw [← Dyadic.toRat_inj, Dyadic.toRat_ofIntWithPrec_eq_mul_two_pow, zpow_neg, zpow_natCast]
  change _ = Dyadic.toRat (value : Dyadic)
  rw [Dyadic.toRat_intCast]
  push_cast
  rw [mul_assoc, mul_inv_cancel₀ (pow_ne_zero _ two_ne_zero), mul_one]

theorem exists_ofOdd {value : Int} (nonzero : value ≠ 0) :
    ∃ odd : Int, ∃ power : Nat, ∃ isOdd, value = odd * 2 ^ power ∧
      Dyadic.ofInt value = .ofOdd odd (-power) isOdd := by
  refine ⟨value >>> value.trailingZeros, value.trailingZeros,
    Int.shiftRight_trailingZeros_mod_two nonzero, ?_, ?_⟩
  · rw [Int.shiftRight_eq_div_pow]
    exact_mod_cast (Int.ediv_mul_cancel (Int.two_pow_trailingZeros_dvd nonzero)).symm
  · rw [Dyadic.ofInt, Dyadic.ofIntWithPrec, dif_neg nonzero]
    congr 1
    omega

theorem toInt?_ofInt (value : Int) : (ofInt value).toInt? = some value := by
  by_cases nonzero : value = 0
  · subst nonzero
    rfl
  · obtain ⟨odd, power, isOdd, rfl, same⟩ := exists_ofOdd nonzero
    rw [ofInt, same, toInt?]
    simp

/-- A number that is whole is the number of an integer, or the negative zero. -/
theorem eq_of_toInt? {number : Number} {value : Int} (whole : number.toInt? = some value) :
    number = ofInt value ∨ number = .negativeZero ∧ value = 0 := by
  match number, whole with
  | .negativeZero, whole => exact .inr ⟨rfl, (Option.some.inj whole).symm⟩
  | .finite .zero, whole =>
      cases Option.some.inj whole
      exact .inl rfl
  | .finite (.ofOdd numerator exponent isOdd), whole =>
      rw [toInt?] at whole
      split at whole
      · rename_i notPositive
        obtain ⟨power, rfl⟩ : ∃ power : Nat, exponent = -power := ⟨(-exponent).toNat, by omega⟩
        rw [ofInt, ← Option.some.inj whole, Dyadic.ofOdd_eq_ofIntWithPrec,
          ofIntWithPrec_neg_natCast]
        simp
      · cases whole

/-! ## Rounding -/

/-- Halves of the last digit aside, rounding does not go below the quotient. -/
theorem div_le_divideToEven (numerator denominator : Nat) :
    numerator / denominator ≤ divideToEven numerator denominator := by
  unfold divideToEven
  dsimp only
  split <;> omega

theorem divideToEven_one (numerator : Nat) : divideToEven numerator 1 = numerator := by
  unfold divideToEven
  simp [Nat.mod_one]

theorem lastExponent_one {numerator : Nat} (nonzero : numerator ≠ 0) :
    lastExponent numerator 1 = numerator.log2 - 52 := by
  have reaches : 1 * Nat.pow 2 numerator.log2 ≤ numerator := by
    rw [one_mul]
    exact Nat.log2_self_le nonzero
  have guess : ((numerator.log2 : Int) - (Nat.log2 1 : Int)) = numerator.log2 := by
    rw [show Nat.log2 1 = 0 from rfl, Nat.cast_zero, sub_zero]
  unfold lastExponent
  rw [guess]
  simp only [Int.natCast_nonneg, if_true, Int.toNat_natCast, reaches]
  omega

/-- A whole number of at most 53 digits is not rounded. -/
theorem ofRatio_of_lt {numerator : Nat} (nonzero : numerator ≠ 0) (small : numerator < 2 ^ 53)
    (negative : Bool) :
    ofRatio negative numerator 1 = ofInt (if negative then -numerator else numerator) := by
  have short : numerator.log2 < 53 := (Nat.log2_lt nonzero).2 small
  obtain ⟨missing, exponent⟩ : ∃ missing : Nat, lastExponent numerator 1 = -missing :=
    ⟨52 - numerator.log2, by rw [lastExponent_one nonzero]; omega⟩
  -- The digits that are missing are filled with zeros, which the exponent takes away again.
  have mantissa : (if 0 ≤ lastExponent numerator 1 then
      divideToEven numerator (1 * Nat.pow 2 (lastExponent numerator 1).toNat)
    else
      divideToEven (numerator * Nat.pow 2 (-lastExponent numerator 1).toNat) 1) =
        numerator * 2 ^ missing := by
    rw [exponent]
    split
    · obtain rfl : missing = 0 := by omega
      simp [divideToEven_one]
    · rw [divideToEven_one, neg_neg, Int.toNat_natCast]
      rfl
  have positive : numerator * 2 ^ missing ≠ 0 := mul_ne_zero nonzero (Nat.two_pow_pos missing).ne'
  have bounded : ¬ ((decide (0 ≤ lastExponent numerator 1) &&
      decide (Nat.pow 2 1024 ≤
        numerator * 2 ^ missing * Nat.pow 2 (lastExponent numerator 1).toNat)) = true) := by
    rw [exponent, Bool.and_eq_true, decide_eq_true_iff, decide_eq_true_iff]
    rintro ⟨zero, large⟩
    obtain rfl : missing = 0 := by omega
    have unchanged : numerator * 2 ^ 0 * Nat.pow 2 (-((0 : Nat) : Int)).toNat = numerator := by
      simp
    rw [unchanged] at large
    have below : ∀ power, 53 ≤ power → ¬ Nat.pow 2 power ≤ numerator := fun power long =>
      Nat.not_le_of_lt (small.trans_le (Nat.pow_le_pow_right two_pos long))
    exact below 1024 (by decide) large
  unfold ofRatio
  dsimp only
  rw [if_neg nonzero, mantissa, if_neg positive, if_neg bounded, exponent, neg_neg, ofInt,
    ← ofIntWithPrec_mul_two_pow _ missing]
  cases negative <;> simp

/-- A whole number of more than 53 digits is not rounded to one of fewer. -/
theorem le_of_ofRatio {numerator : Nat} (large : 2 ^ 53 ≤ numerator) (negative : Bool)
    {value : Int} (whole : (ofRatio negative numerator 1).toInt? = some value) :
    2 ^ 53 ≤ if negative then -value else value := by
  have nonzero : numerator ≠ 0 := by
    rintro rfl
    simp at large
  have long : 53 ≤ numerator.log2 := (Nat.le_log2 nonzero).2 large
  obtain ⟨exponent, isLast, digits⟩ : ∃ exponent : Nat, lastExponent numerator 1 = exponent ∧
      exponent + 52 = numerator.log2 :=
    ⟨numerator.log2 - 52, by rw [lastExponent_one nonzero]; omega, by omega⟩
  -- At least one digit is cut off, and 53 are left.
  have reaches : 2 ^ 52 ≤ divideToEven numerator (2 ^ exponent) := by
    refine le_trans ?_ (div_le_divideToEven ..)
    rw [Nat.le_div_iff_mul_le (Nat.two_pow_pos exponent), ← pow_add, add_comm, digits]
    exact Nat.log2_self_le nonzero
  generalize isMantissa : divideToEven numerator (2 ^ exponent) = mantissa at reaches
  have isLarge : (2 ^ 53 : Int) ≤ mantissa * 2 ^ exponent := by
    have factor : 2 ≤ 2 ^ exponent := by
      calc 2 = 2 ^ 1 := rfl
        _ ≤ 2 ^ exponent := Nat.pow_le_pow_right (by omega) (by omega)
    have product : 2 ^ 52 * 2 ≤ mantissa * 2 ^ exponent := Nat.mul_le_mul reaches factor
    exact_mod_cast product
  have rounded : (if 0 ≤ lastExponent numerator 1 then
      divideToEven numerator (1 * Nat.pow 2 (lastExponent numerator 1).toNat)
    else
      divideToEven (numerator * Nat.pow 2 (-lastExponent numerator 1).toNat) 1) = mantissa := by
    rw [isLast, if_pos (Int.natCast_nonneg exponent), one_mul, Int.toNat_natCast]
    exact isMantissa
  unfold ofRatio at whole
  dsimp only at whole
  rw [if_neg nonzero, rounded, if_neg (by omega)] at whole
  split at whole
  · cases whole
  · rw [isLast, ofIntWithPrec_neg_natCast] at whole
    have same := Option.some.inj ((toInt?_ofInt _).symm.trans whole)
    cases negative with
    | false =>
        rw [← same]
        exact isLarge
    | true =>
        rw [← same, if_pos rfl, if_pos rfl, neg_mul, neg_neg]
        exact isLarge

/-- The exact result of whole numbers is rounded as a ratio over one. -/
theorem round_ofInt {value : Int} (nonzero : value ≠ 0) :
    round (Dyadic.ofInt value) = ofRatio (decide (value < 0)) value.natAbs 1 := by
  obtain ⟨odd, power, isOdd, rfl, same⟩ := exists_ofOdd nonzero
  have positive : (0 : Int) < 2 ^ power := pow_pos two_pos power
  have sign : decide (odd * 2 ^ power < 0) = decide (odd < 0) := by
    rw [decide_eq_decide]
    constructor
    · exact fun product => neg_of_mul_neg_left product positive.le
    · exact fun isNegative => mul_neg_of_neg_of_pos isNegative positive
  rw [same, round, sign, Int.natAbs_mul, Int.natAbs_pow]
  split
  · obtain rfl : power = 0 := by omega
    simp
  · rw [neg_neg, Int.toNat_natCast]
    rfl

theorem round_of_small {value : Int} (small : value.natAbs < 2 ^ 53) :
    round (Dyadic.ofInt value) = ofInt value := by
  by_cases nothing : value = 0
  · subst nothing
    rfl
  · have sameSign : (if decide (value < 0) = true then -(value.natAbs : Int) else value.natAbs) =
        value := by
      simp only [decide_eq_true_eq]
      split <;> omega
    rw [round_ofInt nothing, ofRatio_of_lt (Int.natAbs_ne_zero.2 nothing) small, sameSign]

theorem le_of_round {value found : Int} (large : 2 ^ 53 ≤ value.natAbs)
    (whole : (round (Dyadic.ofInt value)).toInt? = some found) :
    2 ^ 53 ≤ if value < 0 then -found else found := by
  have nonzero : value ≠ 0 := by
    rintro rfl
    simp at large
  rw [round_ofInt nonzero] at whole
  simpa using le_of_ofRatio large _ whole

/-! ## Differences -/

theorem subtract_ofInt {size : Nat} {value : Int} (nonzero : value ≠ 0) :
    (ofNat size).subtract (ofInt value) = round (Dyadic.ofInt (size - value)) := by
  obtain ⟨odd, power, isOdd, _, same⟩ := exists_ofOdd nonzero
  have difference : Dyadic.ofInt size + -Dyadic.ofInt value = Dyadic.ofInt (size - value) := by
    rw [← Dyadic.toRat_inj, Dyadic.toRat_add, Dyadic.toRat_neg]
    change Dyadic.toRat ((size : Int) : Dyadic) + -Dyadic.toRat (value : Dyadic) =
      Dyadic.toRat ((size - value : Int) : Dyadic)
    rw [Dyadic.toRat_intCast, Dyadic.toRat_intCast, Dyadic.toRat_intCast]
    push_cast
    ring
  rw [← difference, subtract, ofInt, same]
  rfl

/-- What is left of a size when a whole number is taken off is in the range of the size exactly if
the exact difference is, and is then the exact difference. -/
theorem toInt?_subtract {size : Nat} (small : size < 2 ^ 53) {count : Number} {value : Int}
    (whole : count.toInt? = some value) :
    (0 ≤ (size : Int) - value → (size : Int) - value ≤ size →
      ((ofNat size).subtract count).toInt? = some (size - value)) ∧
    ∀ found, ((ofNat size).subtract count).toInt? = some found → 0 ≤ found → found ≤ size →
      found = size - value := by
  by_cases nonzero : value = 0
  · subst nonzero
    have unchanged : ((ofNat size).subtract count).toInt? = some size := by
      rcases eq_of_toInt? whole with rfl | ⟨rfl, _⟩
      · exact toInt?_ofInt size
      · -- Taking off the negative zero is an addition of zero that is rounded.
        change (round (Dyadic.ofInt size + 0)).toInt? = some (size : Int)
        rw [Dyadic.add_zero, round_of_small (by omega)]
        exact toInt?_ofInt size
    rw [sub_zero, unchanged]
    exact ⟨fun _ _ => rfl, fun found same _ _ => (Option.some.inj same).symm⟩
  · obtain rfl : count = ofInt value := by
      rcases eq_of_toInt? whole with same | ⟨_, zero⟩
      · exact same
      · exact absurd zero nonzero
    rw [subtract_ofInt nonzero]
    by_cases short : ((size : Int) - value).natAbs < 2 ^ 53
    · rw [round_of_small short, toInt?_ofInt]
      exact ⟨fun _ _ => rfl, fun found same _ _ => (Option.some.inj same).symm⟩
    · -- Neither the exact difference nor what it is rounded to is in the range.
      refine ⟨fun low high => absurd short (by omega), fun found same low high => ?_⟩
      have long := le_of_round (Nat.not_lt.1 short) same
      split at long <;> omega

end ObjectPath.Number
