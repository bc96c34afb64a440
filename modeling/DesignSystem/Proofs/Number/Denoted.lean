import DesignSystem.Proofs.Json.Opening
import DesignSystem.Proofs.Number.Rendered

/-! # What rendered numerals denote

* `Json.nearest?`: the binary64 number nearest to a numeral.
* `Json.Denotes`: a numeral for a number, whether integers are kept apart or everything is rounded.
* `Number.rendered_denotes`: the rendering of a number is one, unless it is too long.
-/

namespace DesignSystem
set_option autoImplicit false

namespace Json

/-- The binary64 number nearest to the numeral that a text begins with. -/
def nearest? (text : List Char) : Option Binary64 :=
  (numeralParts? text).map fun (parts, _) => parts.float

/-- A numeral for a number. It is read as the number, or as an integer equal to it; rounded to
binary64, it is the same as the literal of the number, the sign of zero apart. -/
structure Denotes (text : List Char) (n : Number) : Prop where
  numeral : ∃ s : Spelling, s.Valid ∧ text = s.text
  read : ∃ m, readNumber text = .ok (.number m, []) ∧
    (m = n ∨ ∃ k : ℤ, m = .int k ∧ (k : ℚ) = n.value)
  rounded : ∃ x y, nearest? text = some x ∧ nearest? (numberLiteral n) = some y ∧
    (x = y ∨ x.isZero = true ∧ y.isZero = true)

theorem Spelling.nearest?_text {s : Spelling} (valid : s.Valid) :
    nearest? s.text = some s.parts.float := by
  have parts := numeralParts?_text valid endsNumeral_nil
  rw [List.append_nil] at parts
  rw [nearest?, parts]
  rfl

/-! ## Integers -/

theorem numeral_denotes {n : ℤ} (short : (digitsOf n.natAbs).length ≤ maxDigits) :
    Denotes (DesignSystem.numeral n) (.int n) where
  numeral := ⟨_, numeral_valid n, numeral_eq_text n⟩
  read := by
    have read := readNumber_numeral short endsNumeral_nil
    rw [List.append_nil] at read
    exact ⟨_, read, .inl rfl⟩
  rounded := by
    have rounds := Spelling.nearest?_text (numeral_valid n)
    rw [← numeral_eq_text] at rounds
    exact ⟨_, _, rounds, rounds, .inl rfl⟩

/-- The binary64 number nearest to the numeral of a whole number. -/
theorem nearest?_numeral (n : ℤ) :
    nearest? (DesignSystem.numeral n) = some (.ofRatio (decide (n < 0)) n.natAbs 1) := by
  have value : Spelling.value ⟨decide (n < 0), digitsOf n.natAbs, [], none⟩ =
      (n.natAbs : ℚ) * 10 ^ (0 : ℤ) := by
    simp [Spelling.value, Spelling.parts, digitsValue_digitsOf]
  have ratio : (n.natAbs : ℚ) / (1 : ℕ) = (n.natAbs : ℚ) * 10 ^ (0 : ℤ) := by simp
  rw [numeral_eq_text, Spelling.nearest?_text (numeral_valid n), Spelling.float_eq value,
    Binary64.ofDecimal_eq_ofRatio _ Nat.one_pos ratio]

/-! ## Binary64 numbers -/

section
variable {negative : Bool} {significand : ℕ} {exponent : ℤ}
  {h : Binary64.Canonical significand exponent}

/-- A numeral with the shortest digits of a number denotes the number. -/
theorem nearest?_shortest {s : Spelling} (valid : s.Valid) (sign : s.negative = negative)
    (value : s.value = (Binary64.shortest significand exponent).significant.value) :
    nearest? s.text = some (.finite negative significand exponent h) := by
  have digits := value.trans (Decimal.significant_value _)
  rw [Spelling.nearest?_text valid, Spelling.float_eq digits, sign, ofDecimal_shortest negative h]

theorem sourceSpelling_negative (negative : Bool) (s : Significant) :
    (sourceSpelling negative s).negative = negative := by
  unfold sourceSpelling
  split <;> rfl

theorem nearest?_literal :
    nearest? (numberLiteral (.float (.finite negative significand exponent h))) =
      some (.finite negative significand exponent h) := by
  have isSource := shortest_isSource significand exponent
  have literal := source_eq_text negative significand exponent
  rw [numberLiteral, Binary64.source, literal]
  exact nearest?_shortest (sourceSpelling_valid negative isSource)
    (sourceSpelling_negative negative _) (sourceSpelling_value negative isSource)

theorem shortest_denotes {s : Spelling} (valid : s.Valid) (sign : s.negative = negative)
    (value : s.value = (Binary64.shortest significand exponent).significant.value)
    (float : s.fraction ≠ [] ∨ s.exponent ≠ none) :
    Denotes s.text (.float (.finite negative significand exponent h)) where
  numeral := ⟨s, valid, rfl⟩
  read := by
    have digits := value.trans (Decimal.significant_value _)
    have read := Spelling.readNumber_text valid float digits endsNumeral_nil
    rw [List.append_nil, sign, ofDecimal_shortest negative h] at read
    exact ⟨_, read, .inl rfl⟩
  rounded := ⟨_, _, nearest?_shortest valid sign value, nearest?_literal, .inl rfl⟩

theorem whole_denotes {n : ℕ}
    (whole : (Binary64.finite negative significand exponent h).whole? = some n)
    (small : n < 10 ^ 21) :
    Denotes (DesignSystem.numeral (if negative then -n else n))
      (.float (.finite negative significand exponent h)) := by
  have value := (Binary64.whole?_eq_some_iff negative h n).mp whole
  generalize number : (if negative then -(n : ℤ) else n) = k
  have natAbs : k.natAbs = n := by
    rw [← number]
    split <;> simp
  have short : (digitsOf k.natAbs).length ≤ maxDigits := by
    have digits : (digitsOf k.natAbs).length ≤ 21 :=
      Nat.toDigits_length 10 _ 21 (by decide) (natAbs ▸ small)
    exact digits.trans (by decide)
  have equal : (k : ℚ) = (Number.float (.finite negative significand exponent h)).value := by
    rw [← number, Number.value, Binary64.value, value]
    cases negative <;> simp
  have rounds : nearest? (DesignSystem.numeral k) =
      some (.finite (decide (k < 0)) significand exponent h) := by
    rw [nearest?_numeral, natAbs,
      Binary64.ofRatio_exact _ h Nat.one_pos (by rw [Nat.cast_one, div_one, value])]
  have read := readNumber_numeral short endsNumeral_nil
  rw [List.append_nil] at read
  refine ⟨⟨_, numeral_valid k, numeral_eq_text k⟩, ⟨_, read, .inr ⟨k, rfl, equal⟩⟩,
    _, _, rounds, nearest?_literal, ?_⟩
  by_cases zero : significand = 0
  · exact .inr ⟨by simp [Binary64.isZero, zero], by simp [Binary64.isZero, zero]⟩
  · -- the numeral has the sign of the number, as it is not zero
    have positive : 0 < n := by
      have product : (0 : ℚ) < significand * 2 ^ exponent := by positivity
      rw [value] at product
      exact_mod_cast product
    have sign : decide (k < 0) = negative := by
      rw [← number]
      cases negative
      · simp
      · simpa using positive
    exact .inl (by rw [sign])

theorem scientific_denotes (hs : significand ≠ 0) :
    Denotes (Binary64.signed negative (Binary64.rendered.scientific significand exponent))
      (.float (.finite negative significand exponent h)) := by
  have normal := Binary64.shortest_normal h hs
  obtain ⟨c, cs, leading, -⟩ := normal.leading
  rw [Binary64.scientific_eq_text]
  exact shortest_denotes (Spelling.scientific_valid negative normal Nat.toDigits_ne_nil
      fun _ => isDigit_of_mem_digitsOf) rfl
    (Spelling.scientific_value negative (by simp [leading]) (digitsValue_digitsOf _))
    (.inr (by simp [Spelling.scientific]))

theorem positional_denotes
    (notWhole : (Binary64.finite negative significand exponent h).whole? = none) :
    Denotes (Binary64.signed negative
        ((Binary64.shortest significand exponent).significant.positional.1 ++
          '.' :: (Binary64.shortest significand exponent).significant.positional.2))
      (.float (.finite negative significand exponent h)) := by
  have normal := Binary64.shortest_normal h (Binary64.significand_ne_zero notWhole (by simp))
  have fraction := Binary64.positional_ne_nil notWhole
  rw [Binary64.positional_eq_text negative fraction]
  exact shortest_denotes (Spelling.positional_valid negative
      (Significant.positional_isWhole normal) normal.digit) rfl
    (Spelling.positional_value negative _) (.inl (by simp [Spelling.positional, fraction]))

/-- The rendering of a finite binary64 number, by the four notations that it may have. -/
theorem finite_denotes :
    ∃ text, (Binary64.finite negative significand exponent h).rendered = .ok text ∧
      Denotes text (.float (.finite negative significand exponent h)) := by
  cases whole : (Binary64.finite negative significand exponent h).whole? with
  | some n =>
    simp only [Binary64.rendered, whole]
    split
    · next small => exact ⟨_, rfl, whole_denotes whole small⟩
    · next large =>
      have notZero : some n ≠ some 0 := by
        rintro ⟨⟩
        exact large (by decide)
      exact ⟨_, rfl, scientific_denotes (Binary64.significand_ne_zero whole notZero)⟩
  | none =>
    simp only [Binary64.rendered, whole]
    split
    · exact ⟨_, rfl, positional_denotes whole⟩
    · exact ⟨_, rfl, scientific_denotes (Binary64.significand_ne_zero whole (by simp))⟩

end
end Json

namespace Number

/-- A number is rendered by a numeral that denotes it, unless it is an integer with too many digits
or not finite. -/
theorem rendered_denotes {n : Number} (writable : Json.unwritableNumber? true n = none) :
    ∃ text, n.rendered = .ok text ∧ Json.Denotes text n := by
  cases n with
  | int n =>
    have short := Json.writable_int writable
    refine ⟨numeral n, ?_, Json.numeral_denotes short⟩
    rw [rendered, writtenNumeral, if_neg (Nat.not_lt.mpr short)]
  | float x =>
    have finite := Json.writable_float writable
    cases x with
    | nan => cases finite
    | infinity _ => cases finite
    | finite negative significand exponent h => exact Json.finite_denotes

end Number
end DesignSystem
