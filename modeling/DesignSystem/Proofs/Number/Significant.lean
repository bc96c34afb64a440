import DesignSystem.Proofs.Number.Decimal
import Mathlib.Data.List.Basic

/-! # Significant digits

* `Significant.Normal`: digits that neither begin nor end with zero.
* `Significant.value`: the rational number of the digits and their point.
* `Decimal.significant_value`: a decimal keeps its value without its trailing zeros.
* `Significant.positional_value`: so do digits that are written around their point.
-/

namespace DesignSystem
set_option autoImplicit false

/-! ## Digits of whole numbers -/

theorem isDigit_of_mem_digitsOf {n : ℕ} {c : Char} (h : c ∈ digitsOf n) : c.isDigit = true :=
  Nat.isDigit_of_mem_toDigits (by decide) (by decide) h

theorem digitsOf_eq_if (n : ℕ) :
    digitsOf n = if n < 10 then [n.digitChar] else digitsOf (n / 10) ++ [(n % 10).digitChar] :=
  Nat.toDigits_eq_if (by decide)

/-- No numeral but that of zero begins with a zero. -/
theorem digitsOf_leading {n : ℕ} (h : n ≠ 0) : ∃ c cs, digitsOf n = c :: cs ∧ c ≠ '0' := by
  induction n using Nat.strong_induction_on with
  | _ n ih =>
    rw [digitsOf_eq_if]
    split
    · exact ⟨n.digitChar, [], rfl, by simpa using h⟩
    · obtain ⟨c, cs, split, hc⟩ := ih (n / 10) (by omega) (by omega)
      exact ⟨c, cs ++ [(n % 10).digitChar], by rw [split]; rfl, hc⟩

theorem ofDigitChars_append_eq (a b : List Char) :
    Nat.ofDigitChars 10 (a ++ b) 0 =
      Nat.ofDigitChars 10 a 0 * 10 ^ b.length + Nat.ofDigitChars 10 b 0 := by
  rw [Nat.ofDigitChars_append, Nat.ofDigitChars_eq_ofDigitChars_zero, Nat.mul_comm]

theorem ofDigitChars_replicate (k : ℕ) : Nat.ofDigitChars 10 (List.replicate k '0') 0 = 0 := by
  simp

theorem ofDigitChars_zero_cons (digits : List Char) :
    Nat.ofDigitChars 10 ('0' :: digits) 0 = Nat.ofDigitChars 10 digits 0 := by
  simp [Nat.ofDigitChars_cons]

/-! ## Significant digits -/

/-- Digits without a leading zero; there is at least one. -/
structure Significant.Normal (s : Significant) : Prop where
  digit : ∀ c ∈ s.digits, c.isDigit = true
  leading : ∃ c cs, s.digits = c :: cs ∧ c ≠ '0'

/-- The value of significant digits. -/
def Significant.value (s : Significant) : ℚ :=
  Nat.ofDigitChars 10 s.digits 0 * 10 ^ (s.point - s.digits.length)

/-- Trailing zeros are all that is left out. -/
theorem withoutTrailing_append (digits : List Char) : ∃ k,
    digits = (digits.reverse.dropWhile (· == '0')).reverse ++ List.replicate k '0' := by
  refine ⟨(digits.reverse.takeWhile (· == '0')).length, ?_⟩
  have zeros : digits.reverse.takeWhile (· == '0') =
      List.replicate (digits.reverse.takeWhile (· == '0')).length '0' :=
    List.eq_replicate_of_mem fun c hc => by
      simpa using List.all_eq_true.1 List.all_takeWhile c hc
  rw [← List.reverse_replicate, ← zeros, ← List.reverse_append, List.takeWhile_append_dropWhile,
    List.reverse_reverse]

theorem Decimal.significant_digits {d : Decimal} (h : d.digits ≠ 0) : ∃ k,
    digitsOf d.digits = d.significant.digits ++ List.replicate k '0' ∧
      d.significant.point = (digitsOf d.digits).length + d.exponent := by
  obtain ⟨k, hk⟩ := withoutTrailing_append (digitsOf d.digits)
  refine ⟨k, ?_, ?_⟩
  · simpa only [Decimal.significant, h, if_false] using hk
  · simp only [Decimal.significant, h, if_false]

theorem Decimal.significant_normal {d : Decimal} (h : d.digits ≠ 0) : d.significant.Normal := by
  obtain ⟨k, digits, -⟩ := d.significant_digits h
  refine ⟨fun c hc => isDigit_of_mem_digitsOf (n := d.digits) (by simp [digits, hc]), ?_⟩
  obtain ⟨c, cs, head, hc⟩ := digitsOf_leading h
  rw [digits] at head
  cases hs : d.significant.digits with
  | cons first rest =>
    rw [hs, List.cons_append, List.cons.injEq] at head
    exact ⟨first, rest, rfl, head.1 ▸ hc⟩
  | nil =>
    rw [hs, List.nil_append] at head
    have mem : c ∈ List.replicate k '0' := by simp [head]
    exact absurd (List.eq_of_mem_replicate mem) hc

theorem Decimal.significant_value (d : Decimal) : d.significant.value = d.value := by
  by_cases h : d.digits = 0
  · simp [Significant.value, Decimal.value, Decimal.significant, h]
  · obtain ⟨k, digits, point⟩ := d.significant_digits h
    have number : d.digits = Nat.ofDigitChars 10 d.significant.digits 0 * 10 ^ k := by
      conv_lhs => rw [← Nat.ofDigitChars_ten_toDigits (n := d.digits)]
      change Nat.ofDigitChars 10 (digitsOf d.digits) 0 = _
      rw [digits, ofDigitChars_append_eq, ofDigitChars_replicate, List.length_replicate,
        Nat.add_zero]
    have length : (digitsOf d.digits).length = d.significant.digits.length + k := by
      rw [digits, List.length_append, List.length_replicate]
    have exponent : d.significant.point - d.significant.digits.length = k + d.exponent := by
      rw [point, length]
      push_cast
      ring
    simp only [Significant.value, Decimal.value, exponent]
    rw [number, zpow_add₀ (by norm_num)]
    push_cast
    rw [zpow_natCast, mul_assoc]

namespace Significant

/-- A whole part as numerals have it: a single zero, or digits that begin with another digit. -/
def IsWhole (digits : List Char) : Prop :=
  digits = ['0'] ∨ (∀ c ∈ digits, c.isDigit = true) ∧ ∃ c cs, digits = c :: cs ∧ c ≠ '0'

theorem IsWhole.isDigit {digits : List Char} (whole : IsWhole digits) :
    ∀ c ∈ digits, c.isDigit = true := by
  rcases whole with rfl | ⟨digit, -⟩
  · exact List.forall_mem_singleton.mpr rfl
  · exact digit

theorem IsWhole.exists_cons {digits : List Char} (whole : IsWhole digits) :
    ∃ c cs, digits = c :: cs ∧ c.isDigit = true := by
  have digit := whole.isDigit
  rcases whole with rfl | ⟨-, c, cs, rfl, -⟩
  · exact ⟨'0', [], rfl, rfl⟩
  · exact ⟨c, cs, rfl, digit c List.mem_cons_self⟩

theorem positional_zero (digits : List Char) :
    (Significant.mk digits (.ofNat 0)).positional = (['0'], digits) := rfl

theorem positional_succ (digits : List Char) (k : ℕ) :
    (Significant.mk digits (.ofNat (k + 1))).positional =
      (digits.take (k + 1) ++ List.replicate (k + 1 - digits.length) '0', digits.drop (k + 1)) :=
  rfl

theorem positional_negSucc (digits : List Char) (k : ℕ) :
    (Significant.mk digits (.negSucc k)).positional =
      (['0'], List.replicate (k + 1) '0' ++ digits) := rfl

/-- The digits around the point spell the value. -/
theorem positional_value (s : Significant) :
    (Nat.ofDigitChars 10 (s.positional.1 ++ s.positional.2) 0 : ℚ) *
      10 ^ (-(s.positional.2.length : ℤ)) = s.value := by
  obtain ⟨digits, point⟩ := s
  match point with
  | .ofNat 0 =>
    rw [positional_zero, List.singleton_append, ofDigitChars_zero_cons]
    simp [value]
  | .ofNat (k + 1) =>
    rw [positional_succ]
    simp only [value]
    rcases le_total (k + 1) digits.length with h | h
    · have none : k + 1 - digits.length = 0 := by omega
      rw [none, List.replicate_zero, List.append_nil, List.take_append_drop, List.length_drop]
      congr 2
      push_cast [h]
      rw [Int.ofNat_eq_natCast]
      push_cast
      ring
    · rw [List.take_of_length_le h, List.drop_eq_nil_of_le h, List.append_nil,
        ofDigitChars_append_eq, ofDigitChars_replicate, List.length_replicate, List.length_nil]
      have exponent : (Int.ofNat (k + 1) : ℤ) - digits.length =
          ((k + 1 - digits.length : ℕ) : ℤ) := by
        rw [Int.ofNat_eq_natCast]
        omega
      rw [exponent, zpow_natCast]
      push_cast
      simp
  | .negSucc k =>
    rw [positional_negSucc, List.singleton_append, ofDigitChars_zero_cons, ofDigitChars_append_eq,
      ofDigitChars_replicate, Nat.zero_mul, Nat.zero_add]
    simp only [value, List.length_append, List.length_replicate]
    congr 2
    rw [Int.negSucc_eq]
    push_cast
    ring

theorem positional_isWhole {s : Significant} (h : s.Normal) : IsWhole s.positional.1 := by
  obtain ⟨digits, point⟩ := s
  obtain ⟨digit, c, cs, first, hc⟩ := h
  match point with
  | .ofNat 0 => exact .inl rfl
  | .negSucc k => exact .inl rfl
  | .ofNat (k + 1) =>
    rw [positional_succ]
    refine .inr ⟨fun x hx => ?_, c, cs.take k ++ List.replicate (k + 1 - digits.length) '0', ?_, hc⟩
    · rcases List.mem_append.1 hx with hx | hx
      · exact digit x (List.mem_of_mem_take hx)
      · rw [List.eq_of_mem_replicate hx]
        rfl
    · simp only at first
      rw [first]
      rfl

theorem positional_isDigit {s : Significant} (h : ∀ c ∈ s.digits, c.isDigit = true) :
    ∀ c ∈ s.positional.2, c.isDigit = true := by
  obtain ⟨digits, point⟩ := s
  match point with
  | .ofNat 0 => exact h
  | .ofNat (k + 1) => exact fun c hc => h c (List.mem_of_mem_drop hc)
  | .negSucc k =>
    intro c hc
    rcases List.mem_append.1 hc with hc | hc
    · rw [List.eq_of_mem_replicate hc]
      rfl
    · exact h c hc

end Significant
end DesignSystem
