import DesignSystem.Proofs.Number.Notation
import DesignSystem.Proofs.Tokens.Safety

/-! # Multiples of the base

* `Binary64.exists_canonical`: natural numbers up to `2 ^ 53` are binary64 numbers.
* `Number.div_multiple`: a multiple of an integer is divided by it without rounding, whatever the
  size of both.
* `TokenValue.transformed_multiple`: a rem value of a multiple of the base is the factor.
-/

namespace DesignSystem
set_option autoImplicit false

/-! ## Integers as binary64 numbers -/

namespace Binary64

theorem exists_canonical {n : ℕ} (small : n ≤ 2 ^ 53) :
    ∃ (significand : ℕ) (exponent : ℤ), Canonical significand exponent ∧
      (significand : ℚ) * 2 ^ exponent = n := by
  rcases small.eq_or_lt with rfl | below
  · exact ⟨2 ^ 52, 1, by decide, by norm_num⟩
  rcases n.eq_zero_or_pos with rfl | positive
  · exact ⟨0, -1074, by decide, by simp⟩
  -- otherwise the leading bit is shifted to the place of `2 ^ 52`
  have bits : n.log2 < 53 := (Nat.log2_lt positive.ne').mpr below
  obtain ⟨shift, sum⟩ := Nat.exists_eq_add_of_le (Nat.le_of_lt_succ bits)
  have lower : 2 ^ 52 ≤ n * 2 ^ shift := by
    rw [sum, pow_add]
    exact Nat.mul_le_mul_right _ (Nat.log2_self_le positive.ne')
  have upper : n * 2 ^ shift < 2 ^ 53 := by
    rw [show 53 = n.log2 + 1 + shift by omega, pow_add 2 (n.log2 + 1)]
    exact Nat.mul_lt_mul_of_pos_right Nat.lt_log2_self (by positivity)
  refine ⟨n * 2 ^ shift, -shift, ⟨upper, by omega, by omega, .inl lower⟩, ?_⟩
  rw [Nat.cast_mul, Nat.cast_pow, Nat.cast_ofNat, mul_assoc, zpow_neg, zpow_natCast,
    mul_inv_cancel₀ (by positivity), mul_one]

/-- A quotient of naturals that is an integer up to `2 ^ 53` is not rounded. -/
theorem ofRatio_multiple (negative : Bool) {n den : ℕ} (small : n ≤ 2 ^ 53) (hd : 0 < den) :
    ∃ (significand : ℕ) (exponent : ℤ) (h : Canonical significand exponent),
      ofRatio negative (n * den) den = finite negative significand exponent h ∧
        (significand : ℚ) * 2 ^ exponent = n := by
  obtain ⟨significand, exponent, h, value⟩ := exists_canonical small
  have hd' : (den : ℚ) ≠ 0 := by positivity
  refine ⟨significand, exponent, h, ofRatio_exact negative h hd ?_, value⟩
  rw [value, Nat.cast_mul, mul_div_cancel_right₀ _ hd']

end Binary64

/-! ## Rem values -/

theorem Number.div_multiple {k b : ℤ} (small : k.natAbs ≤ 2 ^ 53) (positive : 0 < b) :
    ∃ q : Binary64, (int (k * b)).div (int b) = .ok q ∧ q.isFinite = true ∧ q.value = k := by
  have sign : (decide (k * b < 0) != decide (b < 0)) = decide (k < 0) := by
    have product : k * b < 0 ↔ k < 0 :=
      lt_iff_lt_of_le_iff_le (mul_nonneg_iff_of_pos_right positive)
    rw [decide_eq_false positive.not_gt, Bool.bne_false, decide_eq_decide]
    exact product
  obtain ⟨significand, exponent, h, quotient, value⟩ :=
    Binary64.ofRatio_multiple (decide (k < 0)) small (Int.natAbs_pos.mpr positive.ne')
  refine ⟨.finite (decide (k < 0)) significand exponent h, ?_, rfl, ?_⟩
  · rw [div, if_neg positive.ne', sign, Int.natAbs_mul, quotient]
    rfl
  · rw [Binary64.value, value, Nat.cast_natAbs, Int.cast_abs]
    by_cases negative : k < 0
    · rw [decide_eq_true negative, if_pos rfl, abs_of_neg (by exact_mod_cast negative)]
      ring
    · rw [decide_eq_false negative, if_neg Bool.false_ne_true,
        abs_of_nonneg (by exact_mod_cast not_lt.mp negative), one_mul]

/-- A multiple of the base of a rule, given or not, is the factor in rem. -/
theorem Number.transformed_factor {k b : ℤ} (small : k.natAbs ≤ 2 ^ 53) (positive : 0 < b)
    {rule : PlatformRule} (isRem : rule.transform = .rem)
    (base : rule.remBase.getD defaultRemBase = .int b) :
    (int (k * b)).transformed rule = .ok (.text (toString k ++ "rem" : String)) := by
  obtain ⟨q, divides, finite, value⟩ := div_multiple small positive
  have renders : (float q).rendered = .ok (numeral k) :=
    Binary64.rendered_of_value finite value (by omega)
  calc (int (k * b)).transformed rule
      = withUnit (.float q) "rem" := by
        simp only [transformed, isRem, base, divides]
        rfl
    _ = .ok (.text (toString k ++ "rem" : String)) := by
        rw [withUnit_of_rendered renders, Text.ofString, String.toList_append, numeral_eq_toList]

/-- A multiple of an integer base is the factor in rem, whatever the size of the base; without a base
the same holds of the multiples of sixteen. -/
theorem TokenValue.transformed_multiple {k b : ℤ} (small : |k| ≤ 2 ^ 53) (positive : 0 < b)
    (category : String) :
    (number (.int (k * b))).transformed (some ⟨category, .rem, some (.int b)⟩) =
        .ok (.text (toString k ++ "rem" : String)) ∧
      (number (.int (k * 16))).transformed (some ⟨category, .rem, none⟩) =
        .ok (.text (toString k ++ "rem" : String)) := by
  have magnitude : k.natAbs ≤ 2 ^ 53 := by
    zify
    exact small
  rw [transformed, transformed]
  exact ⟨Number.transformed_factor magnitude positive rfl rfl,
    Number.transformed_factor magnitude (by decide) rfl rfl⟩

/-- Neither the value nor the base is within the range of binary64. -/
theorem TokenValue.transformed_multiple_large :
    (number (.int (-9007199254740992 * 10 ^ 400))).transformed
        (some ⟨"fontSize", .rem, some (.int (10 ^ 400))⟩) =
        .ok (.text "-9007199254740992rem") ∧
      (number (.int (-9007199254740992 * 16))).transformed (some ⟨"fontSize", .rem, none⟩) =
        .ok (.text "-9007199254740992rem") :=
  transformed_multiple (by decide) (by positivity) "fontSize"

end DesignSystem
