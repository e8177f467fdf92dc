import Lexicon.Proofs.Decimal.Nearest

/-!
# Exact values of doubles

A finite double stands for a rational number, and an infinite one for none. Main statement: two
finite doubles stand for the same number only if they have the same bits or are both zeros.
-/

namespace Lexicon.Binary64

/-- The number that a finite double stands for. -/
def value (x : Binary64) : ℚ :=
  if x.isNegative then -x.size else x.size

variable {x y : Binary64}

theorem size_nonneg (x : Binary64) : 0 ≤ x.size :=
  mul_nonneg (Nat.cast_nonneg _) (two_zpow_pos _).le

theorem size_eq_zero_iff : x.size = 0 ↔ x.magnitude = 0 := by
  have unit := (two_zpow_pos x.exponent).ne'
  rw [size, mul_eq_zero_iff_right unit, Nat.cast_eq_zero]
  rcases x.parts with ⟨-, -, hs⟩ | ⟨h, -, hs⟩
  · rw [hs]
  · rw [hs]
    unfold exponentBit at *
    omega

theorem value_eq_zero_iff : x.value = 0 ↔ x.magnitude = 0 := by
  rw [← size_eq_zero_iff, value]
  split_ifs
  · rw [neg_eq_zero]
  · rfl

/-- The sign and the size of a finite double that is not zero make up the double. -/
theorem eq_of_size (hx : x.isFinite = true) (hy : y.isFinite = true) (positive : 0 < x.size)
    (sign : x.isNegative = y.isNegative) (size : x.size = y.size) : x = y := by
  have near {z : Binary64} (finite : z.isFinite = true) (positive : 0 < z.size) :
      nearest z.isNegative z.size = z := by
    apply nearest_eq_of_near finite positive
    rw [sub_self, abs_zero]
    positivity
  rw [← near hx positive, ← near hy (size ▸ positive), sign, size]

/-- Finite doubles stand for the same number only if they are the same or both zeros. -/
theorem value_eq_iff (hx : x.isFinite = true) (hy : y.isFinite = true) :
    x.value = y.value ↔ x = y ∨ x.magnitude = 0 ∧ y.magnitude = 0 := by
  constructor
  · intro same
    by_cases zero : x.magnitude = 0
    · right
      exact ⟨zero, value_eq_zero_iff.mp (same ▸ value_eq_zero_iff.mpr zero)⟩
    · left
      have positive : 0 < x.size :=
        lt_of_le_of_ne x.size_nonneg (Ne.symm (mt size_eq_zero_iff.mp zero))
      have other := y.size_nonneg
      unfold value at same
      -- a positive number is not the negative of one that is none
      split_ifs at same with negative negative' negative'
      · exact eq_of_size hx hy positive (negative.trans negative'.symm) (neg_inj.mp same)
      · linarith
      · linarith
      · apply eq_of_size hx hy positive _ same
        rw [Bool.eq_false_of_not_eq_true negative, Bool.eq_false_of_not_eq_true negative']
  · rintro (rfl | ⟨hx, hy⟩)
    · rfl
    · rw [value_eq_zero_iff.mpr hx, value_eq_zero_iff.mpr hy]

/-! ### Fractions -/

/-- The fraction of a finite double is the number that it stands for. -/
theorem fraction_of_finite (h : x.isFinite = true) :
    0 < x.fraction.2 ∧ (x.fraction.1 : ℚ) / x.fraction.2 = x.value := by
  obtain ⟨positive, ratio⟩ := x.ratio_eq
  have fraction : x.fraction =
      (if x.isNegative then -(x.ratio.1 : Int) else x.ratio.1, x.ratio.2) := by
    rw [Binary64.fraction, if_pos h]
  rw [fraction]
  constructor
  · exact positive
  · unfold value
    split_ifs
    · rw [← ratio, Int.cast_neg, Int.cast_natCast, neg_div]
    · rw [← ratio, Int.cast_natCast]

/-- The fraction of an infinite double has no value. -/
theorem fraction_of_infinite (h : ¬ x.isFinite = true) :
    x.fraction.2 = 0 ∧ x.fraction.1 ≠ 0 := by
  have fraction : x.fraction = (if x.isNegative then -1 else 1, 0) := by
    rw [Binary64.fraction, if_neg h]
    rfl
  rw [fraction]
  constructor
  · rfl
  · dsimp only
    split_ifs <;> decide

theorem magnitude_ne_zero_of_infinite (h : ¬ x.isFinite = true) : x.magnitude ≠ 0 := by
  intro zero
  apply h
  rw [isFinite, exponentField, zero]
  rfl

end Lexicon.Binary64
