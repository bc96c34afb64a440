import DesignSystem.Number.Basic
import DesignSystem.Proofs.Number.Range

/-! # Quotients

* `Binary64.limit`: the least magnitude that is rounded to infinity.
* `Number.quotient`: the exact quotient that a division rounds.
* `Number.div_of_positive`: a finite number is divided by a positive one, and the result is finite
  if the magnitude of the exact quotient is below the limit.
-/

namespace DesignSystem
set_option autoImplicit false

namespace Binary64

/-- Half-way between the greatest finite number and the next power of two. -/
def limit : ℚ := 2 ^ 1024 - 2 ^ 970

theorem limit_eq : limit = (2 ^ 54 - 1) * 2 ^ (970 : ℤ) := by
  rw [limit, zpow_ofNat, sub_mul, ← pow_add, one_mul]

theorem isFinite_iff_below (negative : Bool) {num den : ℕ} (hd : 0 < den) :
    (ofRatio negative num den).isFinite = true ↔ (num : ℚ) / den < limit := by
  rw [ofRatio_isFinite negative hd, limit_eq]

/-! ## Zeros -/

theorem isZero_eq_false {x : Binary64} (positive : 0 < x.value) : x.isZero = false := by
  cases x with
  | nan => rfl
  | infinity negative => rfl
  | finite negative significand exponent canonical =>
    rw [isZero, beq_eq_false_iff_ne]
    rintro rfl
    simp [value] at positive

/-- Magnitudes from one on are not rounded to zero. -/
theorem ofRatio_isZero (negative : Bool) {num den : ℕ} (hd : 0 < den) (large : den ≤ num) :
    (ofRatio negative num den).isZero = false := by
  have hn : 0 < num := hd.trans_le large
  have spec := exponentOf_isExponent hn hd
  have above : exponentOf num den ≠ -1074 := by
    intro least
    have one : (1 : ℚ) ≤ num / den := by
      rw [le_div_iff₀ (by exact_mod_cast hd), one_mul]
      exact_mod_cast large
    have below := one.trans_lt spec.below
    rw [least, two_pow_mul_zpow, ← zpow_zero (2 : ℚ), two_zpow_lt] at below
    norm_num at below
  simp only [ofRatio, hn.ne', if_false]
  generalize rounded : roundHalfEven (scaled num den (exponentOf num den)).1
    (scaled num den (exponentOf num den)).2 = significand
  have top := (significand_bounds hn hd rounded.symm).2.resolve_right above
  have notZero : significand ≠ 0 := by
    rintro rfl
    exact absurd top (by decide)
  split
  · unfold ofParts
    split <;> rfl
  · unfold ofParts
    split
    · simpa [isZero] using notZero
    · rfl

/-! ## Division of binary64 numbers -/

theorem abs_value (negative : Bool) {significand : ℕ} {exponent : ℤ}
    (h : Canonical significand exponent) :
    |(finite negative significand exponent h).value| = significand * 2 ^ exponent := by
  have magnitude : (0 : ℚ) ≤ significand * 2 ^ exponent := by positivity
  cases negative <;> simp [value, abs_of_nonneg magnitude]

theorem div_isFinite {x y : Binary64} (hx : x.isFinite = true) (hy : y.isFinite = true)
    (notZero : y.isZero = false) :
    (x.div y).isFinite = true ↔ |x.value / y.value| < limit := by
  cases x with
  | nan => cases hx
  | infinity _ => cases hx
  | finite a m e he =>
    cases y with
    | nan => cases hy
    | infinity _ => cases hy
    | finite b n f hf =>
      have hn : n ≠ 0 := by simpa [isZero] using notZero
      have divisor : 0 < (fraction n f).1 := by
        have pos := fraction_den_pos n f
        have ratio : (0 : ℚ) < (fraction n f).1 / (fraction n f).2 := by
          rw [fraction_ratio]
          positivity
        exact Nat.pos_of_ne_zero fun zero => by simp [zero] at ratio
      have pos := Nat.mul_pos (fraction_den_pos m e) divisor
      rw [div, if_neg hn, isFinite_iff_below _ pos, abs_div, abs_value, abs_value,
        ← fraction_ratio m e, ← fraction_ratio n f, div_div_div_eq]
      push_cast
      rfl

end Binary64

namespace Number

/-! ## Division of numbers -/

/-- The nearest binary64 number. -/
def nearest : Number → Binary64
  | int n => .ofInt n
  | float x => x

/-- The exact quotient: of two integers, otherwise of the nearest binary64 numbers. -/
def quotient (a b : Number) : ℚ :=
  match a, b with
  | int m, int n => m / n
  | a, b => a.nearest.value / b.nearest.value

theorem toFloat_of_finite {n : Number} (finite : n.IsFinite) :
    n.toFloat = .ok n.nearest ∧ n.nearest.isFinite = true := by
  cases n with
  | float x => exact ⟨rfl, finite⟩
  | int n =>
    have inRange := (Binary64.ofInt_isFinite n).mpr finite
    exact ⟨if_pos inRange, inRange⟩

theorem nearest_isZero {n : Number} (positive : 0 < n.value) : n.nearest.isZero = false := by
  cases n with
  | float x => exact Binary64.isZero_eq_false positive
  | int n =>
    have positive : 0 < n := by simpa [value] using positive
    exact Binary64.ofRatio_isZero _ Nat.one_pos (by omega)

theorem int_div_of_positive {m n : ℤ} (finite : (int m).IsFinite) (positive : 0 < n) :
    ∃ q, (int m).div (int n) = .ok q ∧
      (q.isFinite = true ↔ |(int m).quotient (int n)| < Binary64.limit) := by
  have pos : 0 < n.natAbs := by omega
  have exact : |(int m).quotient (int n)| = (m.natAbs : ℚ) / n.natAbs := by
    rw [quotient, abs_div, Nat.cast_natAbs, Nat.cast_natAbs, Int.cast_abs, Int.cast_abs]
  -- a divisor from one on leaves the quotient within the range
  have below : (m.natAbs : ℚ) / n.natAbs < Binary64.limit := by
    have dividend := (Binary64.isFinite_iff_below (m < 0) Nat.one_pos).mp
      ((Binary64.ofInt_isFinite m).mpr finite)
    rw [Nat.cast_one, div_one] at dividend
    exact (div_le_self (by positivity) (by exact_mod_cast pos)).trans_lt dividend
  have inRange := (Binary64.isFinite_iff_below ((m < 0) != (n < 0)) pos).mpr below
  refine ⟨_, ?_, by rw [exact]; exact Binary64.isFinite_iff_below ((m < 0) != (n < 0)) pos⟩
  rw [div, if_neg positive.ne']
  exact if_pos inRange

theorem div_of_positive {a b : Number} (ha : a.IsFinite) (hb : b.IsFinite)
    (positive : 0 < b.value) :
    ∃ q, a.div b = .ok q ∧ (q.isFinite = true ↔ |a.quotient b| < Binary64.limit) := by
  obtain ⟨convertsA, finiteA⟩ := toFloat_of_finite ha
  obtain ⟨convertsB, finiteB⟩ := toFloat_of_finite hb
  have notZero := nearest_isZero positive
  have floats : (do
      let x ← a.toFloat
      let y ← b.toFloat
      if y.isZero then .error .floatDivisionByZero else .ok (x.div y)) =
        Except.ok (a.nearest.div b.nearest) := by
    rw [convertsA, convertsB]
    simp only [bind, Except.bind, notZero, Bool.false_eq_true, if_false]
  have range := Binary64.div_isFinite finiteA finiteB notZero
  cases a with
  | float x => exact ⟨_, floats, range⟩
  | int m =>
    cases b with
    | float y => exact ⟨_, floats, range⟩
    | int n => exact int_div_of_positive ha (by simpa [value] using positive)

end Number
end DesignSystem
