import DesignSystem.Number.Shortest
import DesignSystem.Proofs.Number.Rounding

/-! # Decimals of binary64 numbers

* `Decimal.value`: the rational number of a decimal.
* `Binary64.ofDecimal_congr`: decimals of one value are read as one number.
* `Binary64.shortest_readsBack`: the shortest decimal of a finite number is read as the number.
-/

namespace DesignSystem
set_option autoImplicit false

/-- The value of a decimal. -/
def Decimal.value (d : Decimal) : ℚ := d.digits * 10 ^ d.exponent

namespace Binary64

/-! ## Reading decimals -/

theorem ofDecimal_large (negative : Bool) {digits k : ℕ} (hd : digits ≠ 0) (hk : 310 ≤ k) :
    ofRatio negative (digits * 10 ^ k) 1 = infinity negative := by
  refine ofRatio_large negative Nat.one_pos ?_
  rw [Nat.cast_one, div_one]
  have power : 2 ^ 1024 ≤ digits * 10 ^ k := by
    calc 2 ^ 1024 ≤ 10 ^ 310 := by decide +kernel
      _ ≤ 10 ^ k := Nat.pow_le_pow_right (by norm_num) hk
      _ ≤ digits * 10 ^ k := Nat.le_mul_of_pos_left _ (by omega)
  exact_mod_cast power

theorem ofDecimal_small (negative : Bool) {digits k : ℕ} (hk : digits.log2 + 1101 < 3 * (k + 1)) :
    ofRatio negative digits (10 ^ (k + 1)) = zero negative := by
  refine ofRatio_small negative (by positivity) ?_
  have numerator : digits < 2 ^ (digits.log2 + 1) := Nat.lt_log2_self
  have denominator : 2 ^ (3 * (k + 1)) ≤ 10 ^ (k + 1) := by
    rw [Nat.pow_mul]
    exact Nat.pow_le_pow_left (by norm_num) _
  have scale : 2 ^ (digits.log2 + 1) * 2 ^ 1075 ≤ 10 ^ (k + 1) := by
    refine le_trans ?_ denominator
    rw [← Nat.pow_add]
    exact Nat.pow_le_pow_right (by norm_num) (by omega)
  have product : digits * 2 ^ 1075 < 10 ^ (k + 1) :=
    lt_of_lt_of_le (Nat.mul_lt_mul_of_pos_right numerator (by positivity)) scale
  rw [zpow_neg, div_lt_iff₀ (by positivity), ← div_eq_inv_mul, lt_div_iff₀ (by positivity)]
  exact_mod_cast product

/-- The short cuts of the reading agree with rounding the decimal's value. -/
theorem ofDecimal_eq_ofRatio (negative : Bool) {num den digits : ℕ} {exponent : ℤ} (hd : 0 < den)
    (value : (num : ℚ) / den = digits * 10 ^ exponent) :
    ofDecimal negative digits exponent = ofRatio negative num den := by
  by_cases hz : digits = 0
  · have hn : num = 0 := by
      have hd' : (den : ℚ) ≠ 0 := by positivity
      have zero : (num : ℚ) = 0 := by simpa [hz, hd'] using value
      exact_mod_cast zero
    simp [ofDecimal, hz, ofRatio, hn]
  · cases exponent with
    | ofNat k =>
      have same : ofRatio negative num den = ofRatio negative (digits * 10 ^ k) 1 :=
        ofRatio_congr negative hd Nat.one_pos (by simpa using value)
      simp only [ofDecimal, hz, if_false]
      split
      · next large => rw [same, ofDecimal_large negative hz large]
      · exact same.symm
    | negSucc k =>
      have same : ofRatio negative num den = ofRatio negative digits (10 ^ (k + 1)) :=
        ofRatio_congr negative hd (by positivity)
          (by rw [value, zpow_negSucc]; push_cast; rw [div_eq_mul_inv])
      simp only [ofDecimal, hz, if_false]
      split
      · next small => rw [same, ofDecimal_small negative small]
      · exact same.symm

theorem exists_ratio (digits : ℕ) (exponent : ℤ) :
    ∃ num den : ℕ, 0 < den ∧ (num : ℚ) / den = digits * 10 ^ exponent := by
  cases exponent with
  | ofNat k => exact ⟨digits * 10 ^ k, 1, Nat.one_pos, by simp⟩
  | negSucc k =>
    refine ⟨digits, 10 ^ (k + 1), by positivity, ?_⟩
    rw [zpow_negSucc]
    push_cast
    rw [div_eq_mul_inv]

/-- Decimals of one value are read as one number. -/
theorem ofDecimal_congr (negative : Bool) {a b : ℕ} {e f : ℤ}
    (h : (a : ℚ) * 10 ^ e = (b : ℚ) * 10 ^ f) :
    ofDecimal negative a e = ofDecimal negative b f := by
  obtain ⟨num, den, pos, value⟩ := exists_ratio b f
  rw [ofDecimal_eq_ofRatio negative pos value,
    ofDecimal_eq_ofRatio negative pos (value.trans h.symm)]

theorem ofDecimal_finite_sign {digits significand : ℕ} {e exponent : ℤ}
    {h : Canonical significand exponent} (positive : ofDecimal false digits e =
      finite false significand exponent h) (negative : Bool) :
    ofDecimal negative digits e = finite negative significand exponent h := by
  obtain ⟨num, den, pos, value⟩ := exists_ratio digits e
  rw [ofDecimal_eq_ofRatio _ pos value] at positive ⊢
  exact ofRatio_finite_sign positive negative

/-! ## The shortest decimal reads back -/

theorem expansion_value (significand : ℕ) (exponent : ℤ) :
    (expansion significand exponent).value = significand * 2 ^ exponent := by
  cases exponent with
  | ofNat k => simp [expansion, Decimal.value]
  | negSucc k =>
    simp only [expansion, Decimal.value, Nat.pow_eq]
    push_cast
    rw [zpow_neg, zpow_negSucc, ← Nat.cast_succ, zpow_natCast, mul_assoc,
      show (10 : ℚ) = 5 * 2 by norm_num, mul_pow, mul_inv, ← mul_assoc (5 ^ (k + 1)),
      mul_inv_cancel₀ (by positivity), one_mul]

theorem neighbour?_readsBack {readsBack : Decimal → Bool} {num den count : ℕ} {d : Decimal}
    (h : neighbour? readsBack num den count = some d) : readsBack d = true := by
  unfold neighbour? at h
  grind

theorem shortest_readsBack {significand : ℕ} {exponent : ℤ} (h : Canonical significand exponent)
    (hs : significand ≠ 0) :
    ofDecimal false (shortest significand exponent).digits
      (shortest significand exponent).exponent = finite false significand exponent h := by
  simp only [shortest, hs, if_false, ofParts_canonical false h]
  cases found : (List.range' 1 17).findSome? (neighbour? (fun d =>
      ofDecimal false d.digits d.exponent == finite false significand exponent h)
      (fraction significand exponent).1 (fraction significand exponent).2) with
  | some d =>
    obtain ⟨count, -, hd⟩ := List.exists_of_findSome?_eq_some found
    simpa using neighbour?_readsBack hd
  | none =>
    rw [Option.getD_none, ofDecimal_eq_ofRatio false (fraction_den_pos significand exponent)
      ((fraction_ratio significand exponent).trans (expansion_value significand exponent).symm)]
    exact ofRatio_exact false h (fraction_den_pos significand exponent)
      (fraction_ratio significand exponent)

end Binary64
end DesignSystem
