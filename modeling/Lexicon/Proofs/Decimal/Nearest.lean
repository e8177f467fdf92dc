import Lexicon.Decimal.Binary64
import Mathlib.Algebra.Order.Field.Power
import Mathlib.Algebra.Order.Floor.Semifield
import Mathlib.Data.Int.Log
import Mathlib.Data.Rat.Floor
import Mathlib.Tactic.FieldSimp
import Mathlib.Tactic.Linarith
import Mathlib.Tactic.NormNum
import Mathlib.Tactic.Positivity
import Mathlib.Tactic.Ring

/-!
# The nearest double

Reading a decimal depends on its exact value alone, a rational number: which digits it is written
with and where its point stands does not matter. Main statement: every value that is closer to a
finite double than a part in `2 ^ 54` of its size is read as that double.
-/

namespace Lexicon.Binary64

/-! ### Rounding to whole numbers -/

/-- The whole number nearest to a rational one, the even one of two that are equally near. -/
def nearestNat (r : ℚ) : ℕ :=
  let low := ⌊r⌋₊
  if 1 / 2 < r - low ∨ (r - low = 1 / 2 ∧ low % 2 = 1) then low + 1 else low

theorem roundedQuotient_eq (num : ℕ) {den : ℕ} (h : 0 < den) :
    roundedQuotient num den = nearestNat ((num : ℚ) / den) := by
  have hden : (0 : ℚ) < den := by exact_mod_cast h
  have floor : ⌊(num : ℚ) / den⌋₊ = num / den := Nat.floor_div_eq_div num den
  have rest : (num : ℚ) / den - (num / den : ℕ) = (num % den : ℕ) / den := by
    have split : (num : ℚ) = den * (num / den : ℕ) + (num % den : ℕ) := by
      exact_mod_cast (Nat.div_add_mod num den).symm
    rw [eq_div_iff hden.ne', sub_mul, div_mul_cancel₀ _ hden.ne']
    linarith
  have above : 1 / 2 < ((num % den : ℕ) : ℚ) / den ↔ den < 2 * (num % den) := by
    rw [div_lt_div_iff₀ two_pos hden, one_mul, mul_comm]
    exact_mod_cast Iff.rfl
  have half : ((num % den : ℕ) : ℚ) / den = 1 / 2 ↔ 2 * (num % den) = den := by
    rw [div_eq_div_iff hden.ne' two_ne_zero, one_mul, mul_comm]
    exact_mod_cast Iff.rfl
  simp only [roundedQuotient, nearestNat, floor, rest, above, half, Bool.or_eq_true,
    Bool.and_eq_true, decide_eq_true_eq, beq_iff_eq]

theorem nearestNat_eq_of_near {r : ℚ} {k : ℕ} (hr : 0 ≤ r) (h : |r - k| < 1 / 2) :
    nearestNat r = k := by
  obtain ⟨below, above⟩ := abs_lt.mp h
  unfold nearestNat
  by_cases reached : (k : ℚ) ≤ r
  · have floor : ⌊r⌋₊ = k := (Nat.floor_eq_iff hr).mpr ⟨reached, by linarith⟩
    rw [floor, if_neg]
    rintro (h | ⟨h, -⟩) <;> linarith
  · cases k with
    | zero => exact absurd (by simpa using hr) reached
    | succ j =>
      push_cast at below above reached
      have floor : ⌊r⌋₊ = j := (Nat.floor_eq_iff hr).mpr ⟨by linarith, by linarith⟩
      rw [floor, if_pos (.inl (by linarith))]

/-! ### The grid of doubles around a value -/

theorem two_zpow_pos (q : ℤ) : (0 : ℚ) < 2 ^ q := zpow_pos two_pos q

theorem scaled_eq (num : ℕ) {den : ℕ} (h : 0 < den) (q : ℤ) :
    0 < (scaled num den q).2 ∧
      ((scaled num den q).1 : ℚ) / (scaled num den q).2 = (num : ℚ) / den / 2 ^ q := by
  cases q with
  | ofNat k =>
    refine ⟨by simpa [scaled, Nat.shiftLeft_eq] using h, ?_⟩
    simp only [scaled, Nat.shiftLeft_eq]
    push_cast
    rw [Int.ofNat_eq_natCast, zpow_natCast, div_div]
  | negSucc k =>
    refine ⟨h, ?_⟩
    simp only [scaled, Nat.shiftLeft_eq]
    push_cast
    rw [zpow_negSucc, div_inv_eq_mul, mul_div_right_comm]

/-- The exponent of the grid of doubles around a positive value. -/
def grid (r : ℚ) : ℤ :=
  max (Int.log 2 r - 52) (-1074)

theorem grid_eq {r : ℚ} {q : ℤ} (hr : 0 < r) (high : r / 2 ^ q < 2 ^ 53) (least : -1074 ≤ q)
    (low : -1074 < q → (2 : ℚ) ^ 52 ≤ r / 2 ^ q) : grid r = q := by
  rw [div_lt_iff₀ (two_zpow_pos q), ← zpow_natCast, ← zpow_add₀ two_ne_zero] at high
  have below : Int.log 2 r < 53 + q :=
    (Int.lt_zpow_iff_log_lt one_lt_two hr).mp (by simpa using high)
  unfold grid
  by_cases normal : -1074 < q
  · have low := low normal
    rw [le_div_iff₀ (two_zpow_pos q), ← zpow_natCast, ← zpow_add₀ two_ne_zero] at low
    have above : 52 + q ≤ Int.log 2 r :=
      (Int.zpow_le_iff_le_log one_lt_two hr).mp (by simpa using low)
    omega
  · omega

/-- A quotient lies between the powers of two that the lengths of its parts give. -/
theorem log2_bounds {num den : ℕ} (hnum : 0 < num) (hden : 0 < den) :
    (2 : ℚ) ^ ((num.log2 : ℤ) - den.log2 - 1) < num / den ∧
      (num : ℚ) / den < 2 ^ ((num.log2 : ℤ) - den.log2 + 1) := by
  have bounds {n : ℕ} (hn : 0 < n) :
      (2 : ℚ) ^ (n.log2 : ℤ) ≤ n ∧ (n : ℚ) < 2 ^ ((n.log2 : ℤ) + 1) := by
    rw [zpow_natCast, ← Nat.cast_succ, zpow_natCast]
    exact ⟨by exact_mod_cast Nat.log2_self_le hn.ne', by exact_mod_cast Nat.lt_log2_self⟩
  obtain ⟨lowNum, highNum⟩ := bounds hnum
  obtain ⟨lowDen, highDen⟩ := bounds hden
  have positive : (0 : ℚ) < den := by exact_mod_cast hden
  constructor
  · rw [lt_div_iff₀ positive]
    calc (2 : ℚ) ^ ((num.log2 : ℤ) - den.log2 - 1) * den
        < 2 ^ ((num.log2 : ℤ) - den.log2 - 1) * 2 ^ ((den.log2 : ℤ) + 1) := by gcongr
      _ = 2 ^ (num.log2 : ℤ) := by rw [← zpow_add₀ two_ne_zero]; ring_nf
      _ ≤ num := lowNum
  · rw [div_lt_iff₀ positive]
    calc (num : ℚ) < 2 ^ ((num.log2 : ℤ) + 1) := highNum
      _ = 2 ^ ((num.log2 : ℤ) - den.log2 + 1) * 2 ^ (den.log2 : ℤ) := by
        rw [← zpow_add₀ two_ne_zero]; ring_nf
      _ ≤ 2 ^ ((num.log2 : ℤ) - den.log2 + 1) * den := by gcongr

theorem gridExponent_eq {num den : ℕ} (hnum : 0 < num) (hden : 0 < den) :
    gridExponent num den = grid ((num : ℚ) / den) := by
  obtain ⟨low, high⟩ := log2_bounds hnum hden
  have positive : (0 : ℚ) < (num : ℚ) / den := by positivity
  simp only [gridExponent]
  generalize hfirst : max (-1074) ((num.log2 : ℤ) - den.log2 - 52) = first
  obtain ⟨hd, ratio⟩ := scaled_eq num hden first
  have small : (scaled num den first).1 / (scaled num den first).2 < exponentBit ↔
      (num : ℚ) / den / 2 ^ first < 2 ^ 52 := by
    rw [← ratio, Nat.div_lt_iff_lt_mul hd, div_lt_iff₀ (by exact_mod_cast hd)]
    unfold exponentBit
    exact_mod_cast Iff.rfl
  simp only [Bool.and_eq_true, decide_eq_true_eq, small]
  split_ifs with coarse
  · obtain ⟨below, normal⟩ := coarse
    refine (grid_eq positive ?_ (by omega) fun _ => ?_).symm
    · rw [zpow_sub_one₀ two_ne_zero, div_mul_eq_div_div, div_inv_eq_mul]
      linarith
    · rw [le_div_iff₀ (two_zpow_pos _), ← zpow_natCast, ← zpow_add₀ two_ne_zero]
      refine le_trans (zpow_le_zpow_right₀ one_le_two ?_) low.le
      push_cast
      omega
  · refine (grid_eq positive ?_ (by omega) fun normal => ?_).symm
    · rw [div_lt_iff₀ (two_zpow_pos _), ← zpow_natCast, ← zpow_add₀ two_ne_zero]
      refine high.trans_le (zpow_le_zpow_right₀ one_le_two ?_)
      push_cast
      omega
    · exact not_lt.mp fun below => coarse ⟨below, normal⟩

/-! ### Reading decimals -/

/-- The double nearest to a positive rational number, with the given sign. -/
def nearest (negative : Bool) (r : ℚ) : Binary64 :=
  let size := (grid r + 1074).toNat * exponentBit + nearestNat (r / 2 ^ grid r)
  ⟨UInt64.ofNat (min size (2047 * exponentBit) + if negative then signBit else 0)⟩

theorem ofRatio_eq (negative : Bool) {num den : ℕ} (hnum : 0 < num) (hden : 0 < den) :
    ofRatio negative num den = nearest negative ((num : ℚ) / den) := by
  obtain ⟨hd, ratio⟩ := scaled_eq num hden (grid ((num : ℚ) / den))
  simp only [ofRatio, nearest, gridExponent_eq hnum hden, roundedQuotient_eq _ hd, ratio]

/-- Unless its exponent is extreme, a decimal is read as the double nearest to its exact value. -/
theorem ofDecimal_eq (negative : Bool) {digits : ℕ} (h : 0 < digits) {e : ℤ} (low : -400 ≤ e)
    (high : e ≤ 400) : ofDecimal negative digits e = nearest negative (digits * 10 ^ e) := by
  unfold ofDecimal
  rw [if_neg h.ne', if_neg (by omega), if_neg (by omega)]
  cases e with
  | ofNat k =>
    simp only [Nat.pow_eq]
    rw [ofRatio_eq negative (by positivity) one_pos]
    simp
  | negSucc k =>
    simp only [Nat.pow_eq]
    rw [ofRatio_eq negative h (by positivity), zpow_negSucc, div_eq_mul_inv]
    simp

/-! ### Finite doubles -/

/-- The size of a finite double. -/
def size (x : Binary64) : ℚ :=
  x.significand * 2 ^ x.exponent

variable {x : Binary64}

theorem ratio_eq (x : Binary64) : 0 < x.ratio.2 ∧ (x.ratio.1 : ℚ) / x.ratio.2 = x.size := by
  unfold ratio size
  cases x.exponent with
  | ofNat k => simp [Nat.shiftLeft_eq]
  | negSucc k => simp [Nat.shiftLeft_eq, zpow_negSucc, div_eq_mul_inv]

/-- The sign and the magnitude make up the bits. -/
theorem bits_eq (x : Binary64) :
    x.bits.toNat = x.magnitude + if x.isNegative = true then signBit else 0 := by
  have bound := x.bits.toNat_lt
  have sign : x.isNegative = true ↔ signBit ≤ x.bits.toNat := decide_eq_true_iff
  unfold magnitude
  split_ifs with negative <;> rw [sign] at negative <;> unfold signBit at * <;> omega

theorem exponentField_lt (finite : x.isFinite = true) : x.exponentField < 2047 := by
  have bound := x.bits.toNat_lt
  simp only [isFinite, bne_iff_ne, exponentField, magnitude, exponentBit, signBit] at finite ⊢
  omega

/-- The parts of a double whose exponent field is zero, and of any other one. -/
theorem parts (x : Binary64) :
    (x.magnitude < exponentBit ∧ x.exponent = -1074 ∧ x.significand = x.magnitude) ∨
      (exponentBit ≤ x.magnitude ∧ x.exponent = (x.magnitude / exponentBit : ℕ) - 1075 ∧
        x.significand = x.magnitude % exponentBit + exponentBit) := by
  by_cases subnormal : x.exponentField = 0
  · refine .inl ⟨?_, by simp [exponent, subnormal], by simp [significand, subnormal]⟩
    simp only [exponentField, exponentBit] at subnormal ⊢
    omega
  · refine .inr ⟨?_, by rw [exponent, if_neg subnormal, exponentField],
      by simp [significand, subnormal]⟩
    simp only [exponentField, exponentBit] at subnormal ⊢
    omega

/-- The magnitude of a double in terms of its grid and its place there. -/
theorem magnitude_eq (x : Binary64) :
    x.magnitude = (x.exponent + 1074).toNat * exponentBit + x.significand := by
  rcases x.parts with ⟨h, he, hs⟩ | ⟨h, he, hs⟩
  all_goals
    rw [he, hs]
    unfold exponentBit at *
    omega

theorem significand_lt (x : Binary64) : x.significand < 2 ^ 53 := by
  rcases x.parts with ⟨h, -, hs⟩ | ⟨-, -, hs⟩
  all_goals
    rw [hs]
    unfold exponentBit at *
    omega

theorem exponent_ge (x : Binary64) : -1074 ≤ x.exponent := by
  rcases x.parts with ⟨h, he, -⟩ | ⟨h, he, -⟩
  · exact he.ge
  · rw [he]
    unfold exponentBit at *
    omega

theorem significand_ge (normal : -1074 < x.exponent) : 2 ^ 52 ≤ x.significand := by
  rcases x.parts with ⟨-, he, -⟩ | ⟨-, -, hs⟩
  · omega
  · rw [hs, exponentBit]
    omega

/-- A place on a grid that is the place of a finite double is read as the double. -/
theorem eq_of_magnitude (finite : x.isFinite = true) {place : ℕ} (h : place = x.magnitude) :
    (⟨UInt64.ofNat (min place (2047 * exponentBit) + if x.isNegative = true then signBit else 0)⟩ :
      Binary64) = x := by
  have below : place ≤ 2047 * exponentBit := by
    have := exponentField_lt finite
    simp only [exponentField, exponentBit] at this ⊢
    omega
  rw [Nat.min_eq_left below, h, ← bits_eq, UInt64.ofNat_toNat]

/-- What is closer to a finite double than a part in `2 ^ 54` of its size is read as it. -/
theorem nearest_eq_of_near (finite : x.isFinite = true) (positive : 0 < x.size) {r : ℚ}
    (near : |r - x.size| < x.size / 2 ^ 54) : nearest x.isNegative r = x := by
  have unit := two_zpow_pos x.exponent
  obtain ⟨t, rfl⟩ : ∃ t, r = t * 2 ^ x.exponent := ⟨r / 2 ^ x.exponent, by field_simp⟩
  have place : |t - x.significand| < x.significand / 2 ^ 54 := by
    unfold size at near
    rw [← sub_mul, abs_mul, abs_of_pos unit, mul_div_right_comm] at near
    exact lt_of_mul_lt_mul_right near unit.le
  have least := x.exponent_ge
  have bounded : (x.significand : ℚ) ≤ 2 ^ 53 - 1 := by
    have := x.significand_lt
    rw [le_sub_iff_add_le]
    exact_mod_cast this
  have significant : (0 : ℚ) < x.significand := (mul_pos_iff_of_pos_right unit).mp positive
  have half : (x.significand : ℚ) / 2 ^ 54 < 1 / 2 := by
    rw [div_lt_div_iff₀ (by positivity) two_pos]
    linarith
  obtain ⟨below, above⟩ := abs_lt.mp place
  have ht : 0 < t := by
    have : (x.significand : ℚ) / 2 ^ 54 ≤ x.significand := div_le_self significant.le (by norm_num)
    linarith
  by_cases same : -1074 < x.exponent → (2 : ℚ) ^ 52 ≤ t
  · -- the value lies on the grid of the double
    have own : grid (t * 2 ^ x.exponent) = x.exponent := by
      refine grid_eq (mul_pos ht unit) ?_ least ?_
      · rw [mul_div_cancel_right₀ _ unit.ne']
        linarith
      · rwa [mul_div_cancel_right₀ _ unit.ne']
    refine eq_of_magnitude finite ?_
    rw [own, mul_div_cancel_right₀ _ unit.ne',
      nearestNat_eq_of_near ht.le (place.trans half), ← magnitude_eq]
  · -- the double is a power of two, and the value lies on the finer grid below it
    push Not at same
    obtain ⟨normal, under⟩ := same
    have power : x.significand = 2 ^ 52 := by
      have low := significand_ge normal
      have high : (x.significand : ℚ) < 2 ^ 52 + 1 := by linarith
      have : x.significand < 2 ^ 52 + 1 := by exact_mod_cast high
      omega
    rw [power] at place half below bounded
    push_cast at place half below
    have doubled : t * 2 ^ x.exponent / 2 ^ (x.exponent - 1) = 2 * t := by
      rw [zpow_sub_one₀ two_ne_zero]
      field_simp
    have finer : grid (t * 2 ^ x.exponent) = x.exponent - 1 := by
      refine grid_eq (mul_pos ht unit) ?_ (by omega) fun _ => ?_
      · rw [doubled]
        linarith
      · rw [doubled]
        linarith
    have upper : nearestNat (2 * t) = 2 ^ 53 := by
      refine nearestNat_eq_of_near (by linarith) ?_
      rw [abs_lt] at place ⊢
      push_cast
      constructor <;> linarith
    refine eq_of_magnitude finite ?_
    rw [finer, doubled, upper, magnitude_eq, power, exponentBit]
    omega

end Lexicon.Binary64
