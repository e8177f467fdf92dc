import Lexicon.Decimal.Shortest
import Lexicon.Proofs.Decimal.Nearest

/-!
# Shortest decimals are read back

Seventeen digits tell every finite double from its neighbours, so the search for a decimal ends with
one that is read as the double. Main statement: the double nearest to the shortest decimal of a
finite double other than zero is that double.
-/

namespace Lexicon.Decimal

open Binary64 (nearest size)

/-! ### Powers of ten -/

theorem ten_zpow_pos (e : ℤ) : (0 : ℚ) < 10 ^ e := zpow_pos (by norm_num) e

theorem timesPowerOfTen_eq (num : ℕ) {den : ℕ} (h : 0 < den) (e : ℤ) :
    0 < (timesPowerOfTen num den e).2 ∧
      ((timesPowerOfTen num den e).1 : ℚ) / (timesPowerOfTen num den e).2 =
        (num : ℚ) / den * 10 ^ e := by
  cases e with
  | ofNat k =>
    refine ⟨h, ?_⟩
    simp only [timesPowerOfTen, Nat.pow_eq]
    push_cast
    rw [Int.ofNat_eq_natCast, zpow_natCast, mul_div_right_comm]
  | negSucc k =>
    simp only [timesPowerOfTen, Nat.pow_eq]
    refine ⟨by positivity, ?_⟩
    push_cast
    rw [zpow_negSucc, div_mul_eq_div_div, div_eq_mul_inv]

theorem digitCount_pos (n : ℕ) : 0 < digitCount n :=
  List.length_pos_of_ne_nil Nat.toDigits_ne_nil

/-- A positive number lies between the powers of ten that its length gives. -/
theorem digitCount_bounds {n : ℕ} (h : 0 < n) :
    (10 : ℚ) ^ ((digitCount n : ℤ) - 1) ≤ n ∧ (n : ℚ) < 10 ^ (digitCount n : ℤ) := by
  have count := digitCount_pos n
  constructor
  · obtain ⟨k, hk⟩ := Nat.exists_eq_succ_of_ne_zero count.ne'
    rw [hk, Nat.succ_eq_add_one, Nat.cast_succ, add_sub_cancel_right, zpow_natCast]
    cases k with
    | zero => simpa using Nat.succ_le_iff.mpr h
    | succ k =>
      have := (Nat.length_toDigits_le_iff (n := n) (b := 10) (by norm_num) k.succ_pos).not.mp
        (by rw [← digitCount, hk]; omega)
      exact_mod_cast not_lt.mp this
  · rw [zpow_natCast]
    exact_mod_cast (Nat.length_toDigits_le_iff (by norm_num) count).mp le_rfl

theorem decimalExponent_spec {num den : ℕ} (hnum : 0 < num) (hden : 0 < den) :
    (10 : ℚ) ^ (decimalExponent num den - 1) ≤ num / den ∧
      (num : ℚ) / den < 10 ^ decimalExponent num den := by
  obtain ⟨lowNum, highNum⟩ := digitCount_bounds hnum
  obtain ⟨lowDen, highDen⟩ := digitCount_bounds hden
  have positive : (0 : ℚ) < den := by exact_mod_cast hden
  simp only [decimalExponent]
  generalize hp : (digitCount num : ℤ) - digitCount den = p
  obtain ⟨hd, ratio⟩ := timesPowerOfTen_eq num hden (-p)
  have small : (timesPowerOfTen num den (-p)).1 < (timesPowerOfTen num den (-p)).2 ↔
      (num : ℚ) / den < 10 ^ p := by
    have hd' : (0 : ℚ) < (timesPowerOfTen num den (-p)).2 := by exact_mod_cast hd
    rw [← Nat.cast_lt (α := ℚ), ← div_lt_one hd', ratio, zpow_neg, ← div_eq_mul_inv,
      div_lt_one (ten_zpow_pos p)]
  split_ifs with below <;> rw [small] at below
  · refine ⟨?_, below⟩
    rw [le_div_iff₀ positive]
    calc (10 : ℚ) ^ (p - 1) * den ≤ 10 ^ (p - 1) * 10 ^ (digitCount den : ℤ) := by gcongr
      _ = 10 ^ ((digitCount num : ℤ) - 1) := by
        rw [← zpow_add₀ (by norm_num), ← hp]
        ring_nf
      _ ≤ num := lowNum
  · refine ⟨by simpa using below, ?_⟩
    rw [div_lt_iff₀ positive]
    calc (num : ℚ) < 10 ^ (digitCount num : ℤ) := highNum
      _ = 10 ^ (p + 1) * 10 ^ ((digitCount den : ℤ) - 1) := by
        rw [← zpow_add₀ (by norm_num), ← hp]
        ring_nf
      _ ≤ 10 ^ (p + 1) * den := by gcongr

/-! ### The range of finite doubles -/

section Double

variable {x : Binary64}

theorem exponent_le (finite : x.isFinite = true) : x.exponent ≤ 971 := by
  have := Binary64.exponentField_lt finite
  unfold Binary64.exponent
  split_ifs <;> omega

theorem two_pow_lt_ten_pow : 2 ^ 1074 < 10 ^ 324 ∧ 2 ^ 1024 < 10 ^ 309 := by
  decide +kernel

theorem size_bounds (finite : x.isFinite = true) (positive : 0 < x.size) :
    (10 : ℚ) ^ (-324 : ℤ) < x.size ∧ x.size < 10 ^ (309 : ℤ) := by
  have unit := Binary64.two_zpow_pos x.exponent
  have significant : 1 ≤ x.significand :=
    Nat.cast_pos.mp ((mul_pos_iff_of_pos_right unit).mp positive)
  have low : (2 : ℚ) ^ (-1074 : ℤ) ≤ 2 ^ x.exponent :=
    zpow_le_zpow_right₀ one_le_two x.exponent_ge
  have high : (2 : ℚ) ^ x.exponent ≤ 2 ^ (971 : ℤ) :=
    zpow_le_zpow_right₀ one_le_two (exponent_le finite)
  have below : (x.significand : ℚ) < 2 ^ 53 := by exact_mod_cast x.significand_lt
  constructor
  · calc (10 : ℚ) ^ (-324 : ℤ) < 2 ^ (-1074 : ℤ) := by
          rw [zpow_neg, zpow_neg, inv_lt_inv₀ (ten_zpow_pos _) (Binary64.two_zpow_pos _)]
          exact_mod_cast two_pow_lt_ten_pow.1
      _ ≤ 2 ^ x.exponent := low
      _ ≤ x.size := le_mul_of_one_le_left unit.le (by exact_mod_cast significant)
  · calc x.size < 2 ^ 53 * 2 ^ x.exponent := by
          unfold Binary64.size
          gcongr
      _ ≤ 2 ^ 53 * 2 ^ (971 : ℤ) := by gcongr
      _ = 2 ^ (1024 : ℤ) := by
          rw [← zpow_natCast, ← zpow_add₀ two_ne_zero]
          rfl
      _ < 10 ^ (309 : ℤ) := by exact_mod_cast two_pow_lt_ten_pow.2

theorem decimalExponent_bounds (finite : x.isFinite = true) (positive : 0 < x.size) {p : ℤ}
    (low : (10 : ℚ) ^ (p - 1) ≤ x.size) (high : x.size < 10 ^ p) : -324 < p ∧ p ≤ 309 := by
  obtain ⟨least, most⟩ := size_bounds finite positive
  have above := (zpow_lt_zpow_iff_right₀ (by norm_num)).mp (least.trans high)
  have below := (zpow_lt_zpow_iff_right₀ (by norm_num)).mp (low.trans_lt most)
  omega

/-! ### The search -/

theorem of_withDigits? {num den count : ℕ} {s : Scaled} (h : withDigits? x num den count = some s) :
    Binary64.ofDecimal x.isNegative s.digits s.exponent = x ∧
      s.exponent = decimalExponent num den - count := by
  simp only [withDigits?] at h
  generalize decimalExponent num den - count = unit at h ⊢
  generalize timesPowerOfTen num den (-unit) = pair at h
  split at h
  · next low _ =>
    obtain rfl := Option.some.inj h
    exact ⟨beq_iff_eq.mp low, rfl⟩
  · next _ high =>
    obtain rfl := Option.some.inj h
    exact ⟨beq_iff_eq.mp high, rfl⟩
  · next low high =>
    obtain rfl := Option.some.inj h
    refine ⟨?_, rfl⟩
    dsimp only [Binary64.roundedQuotient]
    split_ifs
    · exact beq_iff_eq.mp high
    · exact beq_iff_eq.mp low
  · simp at h

theorem ratio_spec (positive : 0 < x.size) :
    0 < x.ratio.1 ∧ 0 < x.ratio.2 ∧ (x.ratio.1 : ℚ) / x.ratio.2 = x.size := by
  obtain ⟨hden, ratio⟩ := x.ratio_eq
  have hden' : (0 : ℚ) < x.ratio.2 := by exact_mod_cast hden
  rw [← ratio, div_pos_iff_of_pos_right hden'] at positive
  exact ⟨by exact_mod_cast positive, hden, ratio⟩

/-- The size of a finite double between powers of ten, of which neither is extreme. -/
theorem decimalExponent_ratio_spec (finite : x.isFinite = true) (positive : 0 < x.size) :
    ((10 : ℚ) ^ (decimalExponent x.ratio.1 x.ratio.2 - 1) ≤ x.size ∧
      x.size < 10 ^ decimalExponent x.ratio.1 x.ratio.2) ∧
    -324 < decimalExponent x.ratio.1 x.ratio.2 ∧ decimalExponent x.ratio.1 x.ratio.2 ≤ 309 := by
  obtain ⟨hnum, hden, ratio⟩ := ratio_spec positive
  have between := decimalExponent_spec hnum hden
  rw [ratio] at between
  exact ⟨between, decimalExponent_bounds finite positive between.1 between.2⟩

/-- One of the two neighbours with seventeen digits is read as the double. -/
theorem exists_withDigits? (finite : x.isFinite = true) (positive : 0 < x.size) :
    ∃ s, withDigits? x x.ratio.1 x.ratio.2 17 = some s := by
  obtain ⟨-, hden, ratio⟩ := ratio_spec positive
  obtain ⟨⟨low, high⟩, least, most⟩ := decimalExponent_ratio_spec finite positive
  simp only [withDigits?]
  generalize hunit : decimalExponent x.ratio.1 x.ratio.2 - (17 : ℕ) = unit
  obtain ⟨hd, quotient⟩ := timesPowerOfTen_eq x.ratio.1 hden (-unit)
  generalize (timesPowerOfTen x.ratio.1 x.ratio.2 (-unit)).1 = n at quotient ⊢
  generalize (timesPowerOfTen x.ratio.1 x.ratio.2 (-unit)).2 = d at hd quotient ⊢
  have step := ten_zpow_pos unit
  -- the size in units of the last digit, and its whole part
  obtain ⟨t, ht⟩ : ∃ t, x.size = t * 10 ^ unit := ⟨x.size / 10 ^ unit, by field_simp⟩
  have floor : n / d = ⌊t⌋₊ := by
    rw [← Nat.floor_div_eq_div (K := ℚ), quotient, ratio, ht, zpow_neg, mul_assoc,
      mul_inv_cancel₀ step.ne', mul_one]
  have large : 10 ^ 16 ≤ t := by
    have place : ((16 : ℕ) : ℤ) + unit = decimalExponent x.ratio.1 x.ratio.2 - 1 := by omega
    refine le_of_mul_le_mul_right ?_ step
    rw [← ht, ← zpow_natCast, ← zpow_add₀ (by norm_num), place]
    exact low
  have readsBack {k : ℕ} (hk : 0 < k) (near : |k - t| ≤ 1 / 2) :
      (Binary64.ofDecimal x.isNegative k unit == x) = true := by
    rw [beq_iff_eq, Binary64.ofDecimal_eq _ hk (by omega) (by omega)]
    refine Binary64.nearest_eq_of_near finite positive ?_
    rw [ht, ← sub_mul, abs_mul, abs_of_pos step, mul_div_right_comm]
    refine mul_lt_mul_of_pos_right (near.trans_lt ?_) step
    rw [div_lt_div_iff₀ two_pos (by positivity)]
    linarith
  have above := Nat.lt_floor_add_one t
  have below := Nat.floor_le (show 0 ≤ t by linarith)
  have whole : 0 < ⌊t⌋₊ := Nat.floor_pos.mpr (by linarith)
  have found : (Binary64.ofDecimal x.isNegative (n / d) unit == x) = true ∨
      (Binary64.ofDecimal x.isNegative (n / d + 1) unit == x) = true := by
    rw [floor]
    by_cases half : t - ⌊t⌋₊ ≤ 1 / 2
    · refine .inl (readsBack whole ?_)
      rw [abs_sub_comm, abs_of_nonneg] <;> linarith
    · refine .inr (readsBack (Nat.succ_pos _) ?_)
      push_cast
      rw [abs_of_nonneg] <;> linarith
  split
  · exact ⟨_, rfl⟩
  · exact ⟨_, rfl⟩
  · exact ⟨_, rfl⟩
  · next low high => simp [low, high] at found

theorem size_zero (negative : Bool) : (Binary64.zero negative).size = 0 := by
  cases negative <;> simp [Binary64.size, Binary64.significand, Binary64.exponentField,
    Binary64.magnitude, Binary64.zero, Binary64.signBit]

theorem withDigits?_spec (finite : x.isFinite = true) (positive : 0 < x.size) {count : ℕ}
    (hcount : count ≤ 17) {s : Scaled}
    (h : withDigits? x x.ratio.1 x.ratio.2 count = some s) :
    0 < s.digits ∧ -350 ≤ s.exponent ∧ s.exponent < 350 ∧
      nearest x.isNegative (s.digits * 10 ^ s.exponent) = x := by
  obtain ⟨readsBack, hexponent⟩ := of_withDigits? h
  obtain ⟨-, least, most⟩ := decimalExponent_ratio_spec finite positive
  have digits : 0 < s.digits := by
    by_contra none
    have zero : Binary64.ofDecimal x.isNegative s.digits s.exponent = .zero x.isNegative :=
      if_pos (Nat.eq_zero_of_not_pos none)
    rw [← readsBack, zero, size_zero] at positive
    exact lt_irrefl 0 positive
  refine ⟨digits, by omega, by omega, ?_⟩
  rw [← Binary64.ofDecimal_eq _ digits (by omega) (by omega), readsBack]

/-- The double nearest to the shortest decimal of a finite double other than zero is that double,
and the exponent of the decimal is not extreme. -/
theorem shortest_spec (finite : x.isFinite = true) (positive : 0 < x.size) :
    0 < (shortest x).digits ∧ -350 ≤ (shortest x).exponent ∧ (shortest x).exponent ≤ 350 ∧
      nearest x.isNegative ((shortest x).digits * 10 ^ (shortest x).exponent) = x := by
  obtain ⟨hnum, -, -⟩ := ratio_spec positive
  simp only [shortest, if_neg hnum.ne']
  cases found : (List.range 17).findSome? fun count =>
      withDigits? x x.ratio.1 x.ratio.2 (count + 1) with
  | none =>
    obtain ⟨s, hs⟩ := exists_withDigits? finite positive
    have missed := List.findSome?_eq_none_iff.mp found 16 (by simp)
    simp [hs] at missed
  | some s =>
    obtain ⟨count, hcount, hs⟩ := List.exists_of_findSome?_eq_some found
    obtain ⟨digits, low, high, readsBack⟩ :=
      withDigits?_spec finite positive (Nat.succ_le_of_lt (List.mem_range.mp hcount)) hs
    dsimp only
    split_ifs with round
    · have stripped : ((s.digits / 10 : ℕ) : ℚ) * 10 = s.digits := by
        exact_mod_cast Nat.div_mul_cancel (Nat.dvd_of_mod_eq_zero round)
      dsimp only
      refine ⟨by omega, by omega, by omega, ?_⟩
      rw [zpow_add_one₀ (by norm_num), ← mul_assoc, mul_right_comm, stripped]
      exact readsBack
    · exact ⟨digits, low, high.le, readsBack⟩

/-- A decimal with the value of the shortest one is read as the double. -/
theorem ofDecimal_eq_self (finite : x.isFinite = true) (positive : 0 < x.size) {digits : ℕ} {e : ℤ}
    (low : -400 ≤ e) (high : e ≤ 400)
    (value : (digits : ℚ) * 10 ^ e = (shortest x).digits * 10 ^ (shortest x).exponent) :
    Binary64.ofDecimal x.isNegative digits e = x := by
  obtain ⟨proper, -, -, readsBack⟩ := shortest_spec finite positive
  have proper' : (0 : ℚ) < (shortest x).digits := by exact_mod_cast proper
  have given : 0 < digits := by
    have := (mul_pos proper' (ten_zpow_pos (shortest x).exponent)).trans_eq value.symm
    exact_mod_cast (mul_pos_iff_of_pos_right (ten_zpow_pos e)).mp this
  rw [Binary64.ofDecimal_eq _ given low high, value, readsBack]

/-- A double without size is a zero. -/
theorem eq_zero_of_size (none : ¬ 0 < x.size) :
    x.ratio.1 = 0 ∧ Binary64.zero x.isNegative = x := by
  have significant : x.significand = 0 := by
    by_contra some
    exact none (mul_pos (by exact_mod_cast Nat.pos_of_ne_zero some) (Binary64.two_zpow_pos _))
  refine ⟨?_, ?_⟩
  · unfold Binary64.ratio
    cases x.exponent <;> simp [significant]
  · have magnitude : x.magnitude = 0 := by
      rcases x.parts with ⟨-, -, hs⟩ | ⟨-, -, hs⟩
      · exact hs.symm.trans significant
      · simp [significant, Binary64.exponentBit] at hs
    have bits := x.bits_eq
    rw [magnitude, Nat.zero_add] at bits
    cases hneg : x.isNegative
    all_goals
      rw [hneg] at bits
      exact congrArg Binary64.mk (UInt64.toNat_inj.mp bits.symm)

end Double

end Lexicon.Decimal
