import DesignSystem.Number.Binary64
import Mathlib.Algebra.Order.Field.Power
import Mathlib.Data.Rat.Cast.Order
import Mathlib.Tactic.FieldSimp
import Mathlib.Tactic.Linarith
import Mathlib.Tactic.NormNum
import Mathlib.Tactic.Positivity
import Mathlib.Tactic.Ring

/-! # Rounding to binary64

* `Binary64.IsExponent`: the exponent of the unit in the last place of a fraction, which is unique.
* `Binary64.ofRatio_exact`: the fraction of a finite number is rounded to the number.
* `Binary64.ofRatio_congr`: equal fractions are rounded to the same number.
* `Binary64.ofRatio_large`, `Binary64.ofRatio_small`: fractions beyond the finite numbers, and those
  below half of the least one.
-/

namespace DesignSystem.Binary64
set_option autoImplicit false

/-! ## Fractions of powers of two -/

theorem scaled_ratio (num den : ℕ) (exponent : ℤ) :
    ((scaled num den exponent).1 : ℚ) / (scaled num den exponent).2 =
      (num : ℚ) / den / 2 ^ exponent := by
  cases exponent with
  | ofNat k => simp [scaled, div_div]
  | negSucc k => simp [scaled, zpow_negSucc, mul_div_right_comm]

theorem scaled_den_pos (num : ℕ) {den : ℕ} (exponent : ℤ) (h : 0 < den) :
    0 < (scaled num den exponent).2 := by
  cases exponent with
  | ofNat k => exact Nat.mul_pos h (Nat.pow_pos (by decide))
  | negSucc k => exact h

theorem fraction_ratio (significand : ℕ) (exponent : ℤ) :
    ((fraction significand exponent).1 : ℚ) / (fraction significand exponent).2 =
      significand * 2 ^ exponent := by
  cases exponent with
  | ofNat k => simp [fraction]
  | negSucc k => simp [fraction, zpow_negSucc, div_eq_mul_inv]

theorem fraction_den_pos (significand : ℕ) (exponent : ℤ) :
    0 < (fraction significand exponent).2 := by
  cases exponent with
  | ofNat k => exact Nat.one_pos
  | negSucc k => exact Nat.pow_pos (by decide)

/-! ## Rounding to whole numbers -/

theorem roundHalfEven_mul (num den : ℕ) {c : ℕ} (h : 0 < c) :
    roundHalfEven (num * c) (den * c) = roundHalfEven num den := by
  have scale : 2 * (num % den * c) = 2 * (num % den) * c := by ring
  simp only [roundHalfEven, Nat.mul_div_mul_right _ _ h, Nat.mul_mod_mul_right, scale,
    Nat.mul_lt_mul_right h]

/-- Rounding depends on the fraction alone. -/
theorem roundHalfEven_congr {a b c d : ℕ} (hb : 0 < b) (hd : 0 < d)
    (h : (a : ℚ) / b = (c : ℚ) / d) : roundHalfEven a b = roundHalfEven c d := by
  have hb' : (b : ℚ) ≠ 0 := by positivity
  have hd' : (d : ℚ) ≠ 0 := by positivity
  have cross : a * d = c * b := by
    rw [div_eq_div_iff hb' hd'] at h
    exact_mod_cast h
  rw [← roundHalfEven_mul a b hd, cross, Nat.mul_comm b d, roundHalfEven_mul c d hb]

theorem roundHalfEven_one (n : ℕ) : roundHalfEven n 1 = n := by
  simp [roundHalfEven, Nat.mod_one]

theorem roundHalfEven_small {num den : ℕ} (h : 2 * num < den) : roundHalfEven num den = 0 := by
  have quotient : num / den = 0 := Nat.div_eq_of_lt (by omega)
  have rest : num % den = num := Nat.mod_eq_of_lt (by omega)
  simp [roundHalfEven, quotient, rest, h]

/-! ## The exponent of a fraction -/

/-- An exponent at which a magnitude has a significand of 53 bits, or the least exponent. -/
structure IsExponent (magnitude : ℚ) (exponent : ℤ) : Prop where
  least : -1074 ≤ exponent
  below : magnitude < 2 ^ 53 * 2 ^ exponent
  top : 2 ^ 52 * 2 ^ exponent ≤ magnitude ∨ exponent = -1074

theorem two_zpow_le {m n : ℤ} : (2 : ℚ) ^ m ≤ 2 ^ n ↔ m ≤ n :=
  zpow_le_zpow_iff_right₀ (by norm_num)

theorem two_zpow_lt {m n : ℤ} : (2 : ℚ) ^ m < 2 ^ n ↔ m < n :=
  zpow_lt_zpow_iff_right₀ (by norm_num)

theorem two_pow_mul_zpow (k : ℕ) (n : ℤ) : (2 : ℚ) ^ k * 2 ^ n = 2 ^ (k + n : ℤ) := by
  rw [zpow_add₀ (by norm_num), zpow_natCast]

theorem IsExponent.le {magnitude : ℚ} {m n : ℤ} (hm : IsExponent magnitude m)
    (hn : IsExponent magnitude n) : m ≤ n := by
  rcases hm.top with h | h
  · have lt := h.trans_lt hn.below
    rw [two_pow_mul_zpow, two_pow_mul_zpow, two_zpow_lt] at lt
    push_cast at lt
    omega
  · exact h ▸ hn.least

theorem IsExponent.unique {magnitude : ℚ} {m n : ℤ} (hm : IsExponent magnitude m)
    (hn : IsExponent magnitude n) : m = n := le_antisymm (hm.le hn) (hn.le hm)

theorem ratio_bounds {num den : ℕ} (hn : 0 < num) (hd : 0 < den) :
    (2 : ℚ) ^ ((num.log2 : ℤ) - den.log2 - 1) ≤ (num : ℚ) / den ∧
      (num : ℚ) / den < 2 ^ ((num.log2 : ℤ) - den.log2 + 1) := by
  have n1 : (2 : ℚ) ^ (num.log2 : ℤ) ≤ num := by
    rw [zpow_natCast]
    exact_mod_cast Nat.log2_self_le hn.ne'
  have n2 : (num : ℚ) < 2 ^ ((num.log2 : ℤ) + 1) := by
    exact_mod_cast Nat.lt_log2_self (n := num)
  have d1 : (2 : ℚ) ^ (den.log2 : ℤ) ≤ den := by
    rw [zpow_natCast]
    exact_mod_cast Nat.log2_self_le hd.ne'
  have d2 : (den : ℚ) < 2 ^ ((den.log2 : ℤ) + 1) := by
    exact_mod_cast Nat.lt_log2_self (n := den)
  have pos : (0 : ℚ) < den := by exact_mod_cast hd
  constructor
  · rw [le_div_iff₀ pos]
    calc (2 : ℚ) ^ ((num.log2 : ℤ) - den.log2 - 1) * den
        ≤ 2 ^ ((num.log2 : ℤ) - den.log2 - 1) * 2 ^ ((den.log2 : ℤ) + 1) := by gcongr
      _ = 2 ^ (num.log2 : ℤ) := by rw [← zpow_add₀ (by norm_num)]; congr 1; omega
      _ ≤ num := n1
  · rw [div_lt_iff₀ pos]
    calc (num : ℚ) < 2 ^ ((num.log2 : ℤ) + 1) := n2
      _ = 2 ^ ((num.log2 : ℤ) - den.log2 + 1) * 2 ^ (den.log2 : ℤ) := by
        rw [← zpow_add₀ (by norm_num)]; congr 1; omega
      _ ≤ 2 ^ ((num.log2 : ℤ) - den.log2 + 1) * den := by gcongr

theorem scaled_div_lt {num den : ℕ} (exponent : ℤ) (hd : 0 < den) :
    (scaled num den exponent).1 / (scaled num den exponent).2 < Nat.pow 2 53 ↔
      (num : ℚ) / den < 2 ^ 53 * 2 ^ exponent := by
  have pos : (0 : ℚ) < (scaled num den exponent).2 := by
    exact_mod_cast scaled_den_pos num exponent hd
  have two : (0 : ℚ) < 2 ^ exponent := by positivity
  rw [Nat.div_lt_iff_lt_mul (scaled_den_pos num exponent hd), ← div_lt_iff₀ two, ← scaled_ratio,
    div_lt_iff₀ pos]
  norm_cast

theorem exponentOf_isExponent {num den : ℕ} (hn : 0 < num) (hd : 0 < den) :
    IsExponent ((num : ℚ) / den) (exponentOf num den) := by
  obtain ⟨lower, upper⟩ := ratio_bounds hn hd
  unfold exponentOf
  set first : ℤ := max ((num.log2 : ℤ) - den.log2 - 53) (-1074) with hfirst
  simp only [scaled_div_lt first hd]
  split
  · next below =>
    refine ⟨le_max_right _ _, below, ?_⟩
    rcases le_or_gt ((num.log2 : ℤ) - den.log2 - 53) (-1074) with h | h
    · exact .inr (max_eq_right h)
    · left
      rw [two_pow_mul_zpow]
      refine le_trans (two_zpow_le.2 ?_) lower
      push_cast
      omega
  · next above =>
    refine ⟨by omega, upper.trans_le ?_, .inl ?_⟩
    · rw [two_pow_mul_zpow, two_zpow_le]
      push_cast
      omega
    · rw [not_lt, two_pow_mul_zpow] at above
      rw [two_pow_mul_zpow]
      refine le_trans (two_zpow_le.2 ?_) above
      push_cast
      omega

/-! ## The nearest number -/

/-- The sign has no part in rounding. -/
theorem ofRatio_eq_ofParts (num den : ℕ) : ∃ significand exponent, ∀ negative,
    ofRatio negative num den = ofParts negative significand exponent := by
  by_cases hn : num = 0
  · exact ⟨0, -1074, fun negative => by simp [ofRatio, hn, zero, ofParts, Canonical]⟩
  · by_cases carry : roundHalfEven (scaled num den (exponentOf num den)).1
        (scaled num den (exponentOf num den)).2 = Nat.pow 2 53
    · refine ⟨Nat.pow 2 52, exponentOf num den + 1, fun negative => ?_⟩
      simp only [ofRatio, hn, carry, if_true, if_false]
    · refine ⟨roundHalfEven (scaled num den (exponentOf num den)).1
        (scaled num den (exponentOf num den)).2, exponentOf num den, fun negative => ?_⟩
      simp only [ofRatio, hn, carry, if_false]

theorem ofParts_canonical (negative : Bool) {significand : ℕ} {exponent : ℤ}
    (h : Canonical significand exponent) :
    ofParts negative significand exponent = finite negative significand exponent h := by
  simp [ofParts, h]

theorem ofRatio_finite_sign {num den significand : ℕ} {exponent : ℤ}
    {h : Canonical significand exponent} (positive : ofRatio false num den =
      finite false significand exponent h) (negative : Bool) :
    ofRatio negative num den = finite negative significand exponent h := by
  obtain ⟨m, e, parts⟩ := ofRatio_eq_ofParts num den
  rw [parts, ofParts] at positive
  split at positive
  · next hc =>
    cases positive
    rw [parts, ofParts_canonical negative hc]
  · cases positive

theorem ofRatio_congr (negative : Bool) {a b c d : ℕ} (hb : 0 < b) (hd : 0 < d)
    (h : (a : ℚ) / b = (c : ℚ) / d) : ofRatio negative a b = ofRatio negative c d := by
  have hb' : (b : ℚ) ≠ 0 := by positivity
  have hd' : (d : ℚ) ≠ 0 := by positivity
  by_cases ha : a = 0
  · have hc : c = 0 := by
      subst ha
      have zero : (c : ℚ) = 0 := by simpa [hd'] using h.symm
      exact_mod_cast zero
    simp [ofRatio, ha, hc]
  · have hc : c ≠ 0 := by
      rintro rfl
      have zero : (a : ℚ) = 0 := by simpa [hb'] using h
      exact ha (by exact_mod_cast zero)
    have exponent : exponentOf a b = exponentOf c d :=
      (exponentOf_isExponent (by omega) hb).unique
        (h ▸ exponentOf_isExponent (by omega) hd)
    have rounded : roundHalfEven (scaled a b (exponentOf c d)).1 (scaled a b (exponentOf c d)).2 =
        roundHalfEven (scaled c d (exponentOf c d)).1 (scaled c d (exponentOf c d)).2 :=
      roundHalfEven_congr (scaled_den_pos a _ hb) (scaled_den_pos c _ hd)
        (by rw [scaled_ratio, scaled_ratio, h])
    simp only [ofRatio, ha, hc, if_false, exponent, rounded]

theorem Canonical.exponent_of_zero {exponent : ℤ} (h : Canonical 0 exponent) :
    exponent = -1074 := by
  obtain ⟨-, -, -, top⟩ := h
  simpa using top

theorem Canonical.isExponent {significand : ℕ} {exponent : ℤ}
    (h : Canonical significand exponent) :
    IsExponent ((significand : ℚ) * 2 ^ exponent) exponent := by
  obtain ⟨below, least, -, top⟩ := h
  have two : (0 : ℚ) < 2 ^ exponent := by positivity
  refine ⟨least, ?_, top.imp_left fun top => ?_⟩
  · gcongr
    exact_mod_cast below
  · gcongr
    exact_mod_cast top

/-- A magnitude that the format has is its own nearest number. -/
theorem ofRatio_exact (negative : Bool) {num den significand : ℕ} {exponent : ℤ}
    (h : Canonical significand exponent) (hd : 0 < den)
    (value : (num : ℚ) / den = significand * 2 ^ exponent) :
    ofRatio negative num den = finite negative significand exponent h := by
  have hd' : (den : ℚ) ≠ 0 := by positivity
  have two : (2 : ℚ) ^ exponent ≠ 0 := by positivity
  by_cases hs : significand = 0
  · subst hs
    have he := h.exponent_of_zero
    subst he
    have hn : num = 0 := by
      have zero : (num : ℚ) = 0 := by simpa [hd'] using value
      exact_mod_cast zero
    simp [ofRatio, hn, zero]
  · have hn : num ≠ 0 := by
      rintro rfl
      simp [hs, two] at value
    have exp : exponentOf num den = exponent :=
      (exponentOf_isExponent (by omega) hd).unique (value ▸ h.isExponent)
    have rounded : roundHalfEven (scaled num den exponent).1 (scaled num den exponent).2 =
        significand := by
      rw [← roundHalfEven_one significand]
      refine roundHalfEven_congr (scaled_den_pos num _ hd) Nat.one_pos ?_
      rw [scaled_ratio, value, mul_div_assoc, div_self two]
      simp
    have hlt : significand ≠ Nat.pow 2 53 := h.1.ne
    simp only [ofRatio, hn, if_false, exp, rounded, hlt]
    exact ofParts_canonical negative h

/-- Magnitudes from `2 ^ 1024` on are beyond the format. -/
theorem ofRatio_large (negative : Bool) {num den : ℕ} (hd : 0 < den)
    (large : (2 : ℚ) ^ 1024 ≤ (num : ℚ) / den) :
    ofRatio negative num den = infinity negative := by
  have hn : num ≠ 0 := by
    rintro rfl
    rw [Nat.cast_zero, zero_div] at large
    exact absurd large (not_le.2 (by positivity))
  have spec := exponentOf_isExponent (Nat.pos_of_ne_zero hn) hd
  have high : 971 < exponentOf num den := by
    have lt := large.trans_lt spec.below
    rw [two_pow_mul_zpow, ← zpow_natCast, two_zpow_lt] at lt
    push_cast at lt
    omega
  have outside : ∀ (significand : ℕ) (exponent : ℤ), 971 < exponent →
      ofParts negative significand exponent = infinity negative := fun significand exponent h => by
    have hc : ¬ Canonical significand exponent := fun c => absurd c.2.2.1 (by omega)
    simp [ofParts, hc]
  simp only [ofRatio, hn, if_false]
  split
  · exact outside _ _ (by omega)
  · exact outside _ _ high

/-- Magnitudes below half of the least positive number round to zero. -/
theorem ofRatio_small (negative : Bool) {num den : ℕ} (hd : 0 < den)
    (small : (num : ℚ) / den < 2 ^ (-1075 : ℤ)) : ofRatio negative num den = zero negative := by
  by_cases hn : num = 0
  · simp [ofRatio, hn]
  · have spec := exponentOf_isExponent (Nat.pos_of_ne_zero hn) hd
    have exp : exponentOf num den = -1074 := by
      refine spec.unique ⟨le_rfl, small.trans_le ?_, .inr rfl⟩
      rw [two_pow_mul_zpow, two_zpow_le]
      norm_num
    have half : 2 * (scaled num den (-1074)).1 < (scaled num den (-1074)).2 := by
      have pos : (0 : ℚ) < (scaled num den (-1074)).2 := by
        exact_mod_cast scaled_den_pos num (-1074) hd
      have ratio : ((scaled num den (-1074)).1 : ℚ) / (scaled num den (-1074)).2 < 1 / 2 := by
        rw [scaled_ratio, div_lt_iff₀ (by positivity)]
        refine small.trans_le (le_of_eq ?_)
        rw [show (-1075 : ℤ) = -1 + -1074 by norm_num, zpow_add₀ (by norm_num)]
        norm_num
      rw [div_lt_div_iff₀ pos (by norm_num)] at ratio
      have cross : (scaled num den (-1074)).1 * 2 < 1 * (scaled num den (-1074)).2 := by
        exact_mod_cast ratio
      omega
    simp only [ofRatio, hn, if_false, exp, roundHalfEven_small half]
    rfl

end DesignSystem.Binary64
