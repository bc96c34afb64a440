import DesignSystem.Proofs.Json.Numeral
import DesignSystem.Proofs.Number.Range
import Mathlib.Data.Nat.Digits.Defs

/-! # Rendered numerals

* `Binary64.whole?_eq_some_iff`: the finite numbers that are whole.
* `Binary64.ofRatio_whole`: what is nearest to a whole number is whole.
* `Binary64.rendered_finite`: finite numbers are rendered, in the grammar of numerals; others are
  not.
* `Number.rendered_finite`: so are the integers within the range of binary64.
-/

namespace DesignSystem
set_option autoImplicit false

namespace Binary64

/-! ## Whole numbers -/

theorem whole?_eq_some_iff (negative : Bool) {significand : ℕ} {exponent : ℤ}
    (h : Canonical significand exponent) (n : ℕ) :
    (finite negative significand exponent h).whole? = some n ↔
      (significand : ℚ) * 2 ^ exponent = n := by
  have pos := fraction_den_pos significand exponent
  have pos' : ((fraction significand exponent).2 : ℚ) ≠ 0 := by positivity
  rw [← fraction_ratio, div_eq_iff pos', whole?]
  generalize fraction significand exponent = part at pos
  norm_cast
  split
  · next divides =>
    rw [Option.some.injEq, Nat.div_eq_iff_eq_mul_left pos (Nat.dvd_of_mod_eq_zero divides)]
  · next rest =>
    simp only [reduceCtorEq, false_iff]
    intro whole
    exact rest (by rw [whole, Nat.mul_mod_left])

/-- The value of what a fraction is rounded to. -/
theorem ofRatio_rounded {negative sign : Bool} {num den significand : ℕ} {exponent : ℤ}
    {h : Canonical significand exponent} (hn : num ≠ 0)
    (rounds : ofRatio negative num den = finite sign significand exponent h) :
    (significand : ℚ) * 2 ^ exponent =
      roundHalfEven (scaled num den (exponentOf num den)).1
        (scaled num den (exponentOf num den)).2 * 2 ^ exponentOf num den := by
  simp only [ofRatio, hn, if_false] at rounds
  split at rounds
  · next carried =>
    unfold ofParts at rounds
    split at rounds
    · cases rounds
      rw [carried, zpow_add_one₀ two_ne_zero]
      norm_num
      ring
    · cases rounds
  · unfold ofParts at rounds
    split at rounds
    · cases rounds
      rfl
    · cases rounds

theorem ofRatio_whole {negative sign : Bool} {n significand : ℕ} {exponent : ℤ}
    {h : Canonical significand exponent}
    (rounds : ofRatio negative n 1 = finite sign significand exponent h) :
    ∃ whole : ℕ, (significand : ℚ) * 2 ^ exponent = whole := by
  by_cases hn : n = 0
  · simp only [ofRatio, hn, if_true, zero] at rounds
    cases rounds
    exact ⟨0, by simp⟩
  · rw [ofRatio_rounded hn rounds]
    cases exponentOf n 1 with
    | ofNat k => exact ⟨roundHalfEven n (1 * 2 ^ k) * 2 ^ k, by simp [scaled]⟩
    -- a fraction that is not scaled down is not rounded
    | negSucc k =>
      refine ⟨n, ?_⟩
      simp only [scaled, Nat.pow_eq, roundHalfEven_one, zpow_negSucc]
      push_cast
      rw [mul_assoc, mul_inv_cancel₀ (by positivity), mul_one]

/-! ## Digits of finite numbers -/

theorem significand_ne_zero {negative : Bool} {significand : ℕ} {exponent : ℤ}
    {h : Canonical significand exponent} {found : Option ℕ}
    (whole : (finite negative significand exponent h).whole? = found) (notZero : found ≠ some 0) :
    significand ≠ 0 := by
  rintro rfl
  exact notZero (whole.symm.trans ((whole?_eq_some_iff negative h 0).mpr (by simp)))

theorem shortest_normal {significand : ℕ} {exponent : ℤ} (h : Canonical significand exponent)
    (hs : significand ≠ 0) : (shortest significand exponent).significant.Normal := by
  refine Decimal.significant_normal fun noDigits => hs ?_
  have reads := shortest_readsBack h hs
  simp only [ofDecimal, noDigits, if_true, zero, finite.injEq] at reads
  exact reads.2.1.symm

/-- Digits without a fraction part spell a whole number, and the number nearest to it is whole. -/
theorem positional_ne_nil {negative : Bool} {significand : ℕ} {exponent : ℤ}
    {h : Canonical significand exponent}
    (notWhole : (finite negative significand exponent h).whole? = none) :
    (shortest significand exponent).significant.positional.2 ≠ [] := by
  intro none
  have hs : significand ≠ 0 := significand_ne_zero notWhole (by simp)
  have value := Significant.positional_value (shortest significand exponent).significant
  rw [none, List.append_nil, List.length_nil, Nat.cast_zero, neg_zero, zpow_zero, mul_one,
    Decimal.significant_value] at value
  generalize Nat.ofDigitChars 10 (shortest significand exponent).significant.positional.1 0 = n
    at value
  have rounds : ofRatio false n 1 = finite false significand exponent h := by
    rw [← shortest_readsBack h hs]
    exact (ofDecimal_eq_ofRatio false Nat.one_pos
      (by rw [Nat.cast_one, div_one]; exact value)).symm
  obtain ⟨whole, isWhole⟩ := ofRatio_whole rounds
  rw [(whole?_eq_some_iff negative h whole).mpr isWhole] at notWhole
  cases notWhole

/-! ## The literals of compiled tokens -/

theorem scientific_eq_text (negative : Bool) (significand : ℕ) (exponent : ℤ) :
    signed negative (rendered.scientific significand exponent) =
      (Json.Spelling.scientific negative (shortest significand exponent).significant
        (digitsOf (shortest significand exponent).significant.exponent.natAbs)).text := by
  simp only [rendered.scientific, Json.Spelling.text, Json.Spelling.scientific, mantissa,
    Significant.leading, renderedExponent, Json.Spelling.scaledBy, decide_eq_true_eq]
  cases (shortest significand exponent).significant.digits.drop 1 <;>
    simp [Json.Spelling.pointed]

theorem positional_eq_text (negative : Bool) {s : Significant} (h : s.positional.2 ≠ []) :
    signed negative (s.positional.1 ++ '.' :: s.positional.2) =
      (Json.Spelling.positional negative s).text := by
  simp only [Json.Spelling.text, Json.Spelling.positional, h, if_false, Json.Spelling.scaledBy,
    List.append_nil]
  cases fraction : s.positional.2 with
  | nil => exact absurd fraction h
  | cons _ _ => rfl

theorem scientific_numeral (negative : Bool) {significand : ℕ} {exponent : ℤ}
    (h : Canonical significand exponent) (hs : significand ≠ 0) : ∃ s : Json.Spelling,
      s.Valid ∧ signed negative (rendered.scientific significand exponent) = s.text :=
  ⟨_, Json.Spelling.scientific_valid negative (shortest_normal h hs) Nat.toDigits_ne_nil
    fun _ => isDigit_of_mem_digitsOf, scientific_eq_text negative significand exponent⟩

section
variable {negative : Bool} {significand : ℕ} {exponent : ℤ} {h : Canonical significand exponent}

theorem rendered_whole {n : ℕ} (whole : (finite negative significand exponent h).whole? = some n) :
    ∃ s : Json.Spelling, s.Valid ∧
      (finite negative significand exponent h).rendered = .ok s.text := by
  simp only [rendered, whole]
  split
  · exact ⟨_, Json.numeral_valid _, by rw [Json.numeral_eq_text]⟩
  · next large =>
    have notZero : some n ≠ some 0 := by
      rintro ⟨⟩
      exact large (by decide)
    obtain ⟨s, valid, text⟩ := scientific_numeral negative h (significand_ne_zero whole notZero)
    exact ⟨s, valid, by rw [text]⟩

theorem rendered_fraction (whole : (finite negative significand exponent h).whole? = none) :
    ∃ s : Json.Spelling, s.Valid ∧
      (finite negative significand exponent h).rendered = .ok s.text := by
  have hs := significand_ne_zero whole (by simp)
  simp only [rendered, whole]
  split
  · have normal := shortest_normal h hs
    refine ⟨_, Json.Spelling.positional_valid negative
      (Significant.positional_isWhole normal) normal.digit, ?_⟩
    rw [positional_eq_text negative (positional_ne_nil whole)]
  · obtain ⟨s, valid, text⟩ := scientific_numeral negative h hs
    exact ⟨s, valid, by rw [text]⟩

end

theorem rendered_finite {x : Binary64} (isFinite : x.isFinite = true) :
    ∃ s : Json.Spelling, s.Valid ∧ x.rendered = .ok s.text := by
  cases x with
  | nan => cases isFinite
  | infinity _ => cases isFinite
  | finite negative significand exponent canonical =>
    cases whole : (finite negative significand exponent canonical).whole? with
    | some n => exact rendered_whole whole
    | none => exact rendered_fraction whole

theorem rendered_not_finite {x : Binary64} (infinite : x.isFinite = false) :
    x.rendered = .error .notRenderable := by
  cases x with
  | finite negative significand exponent canonical => cases infinite
  | _ => rfl

end Binary64

/-- Integers within the range of binary64 are far from having too many digits. -/
theorem Number.rendered_finite {n : Number} (finite : n.IsFinite) :
    ∃ s : Json.Spelling, s.Valid ∧ n.rendered = .ok s.text := by
  cases n with
  | float x => exact Binary64.rendered_finite finite
  | int n =>
    have below : n.natAbs < 10 ^ 309 :=
      (lt_of_lt_of_le finite (Nat.sub_le _ _)).trans_le (by decide +kernel)
    have short : (digitsOf n.natAbs).length ≤ 309 := Nat.toDigits_length 10 _ 309 (by decide) below
    refine ⟨_, Json.numeral_valid n, ?_⟩
    rw [rendered, writtenNumeral, if_neg (by rw [maxDigits]; omega), Json.numeral_eq_text]

end DesignSystem
