import DesignSystem.Proofs.Number.Denoted
import DesignSystem.Proofs.Number.Quotient

/-! # The notation of rendered numbers

* `Number.rendered_int`: an integer is rendered in its decimal digits, unless there are too many.
* `Binary64.millionth`: the number below which fractions are rendered with an exponent.
* `Json.Spelling.Notates`: the notation that a binary64 number is rendered in.
* `Number.value_eq_of_rendered`: numbers of different values are rendered differently.
* `Number.rendered_exact`: a rendered number is in its notation and is read back.
-/

namespace DesignSystem
set_option autoImplicit false

/-! ## Integers -/

theorem ofList_numeral (n : ℤ) : String.ofList (numeral n) = toString n := by
  rw [Int.toString_eq_repr, Int.repr_eq_if, numeral]
  by_cases negative : n < 0
  · have magnitude : (-n).toNat = n.natAbs := by omega
    rw [if_pos negative, if_neg (by omega), magnitude, Nat.repr_eq_ofList_toDigits, digitsOf,
      ← String.toList_inj]
    simp
  · have magnitude : n.toNat = n.natAbs := by omega
    rw [if_neg negative, if_pos (by omega), magnitude, Nat.repr_eq_ofList_toDigits, digitsOf]

theorem numeral_eq_toList (n : ℤ) : numeral n = (toString n).toList := by
  rw [← ofList_numeral, String.toList_ofList]

theorem Number.rendered_int (n : ℤ) : (int n).rendered =
    if n.natAbs < 10 ^ maxDigits then .ok (toString n).toList else .error .numeralTooLong := by
  have short : (digitsOf n.natAbs).length ≤ maxDigits ↔ n.natAbs < 10 ^ maxDigits :=
    Nat.length_toDigits_le_iff (by decide) (by decide)
  rw [rendered, writtenNumeral, ← numeral_eq_toList]
  by_cases small : n.natAbs < 10 ^ maxDigits
  · rw [if_pos small, if_neg (Nat.not_lt.mpr (short.mpr small))]
  · rw [if_neg small, if_pos (Nat.lt_of_not_le fun le => small (short.mp le))]

/-! ## Magnitudes of binary64 numbers -/

namespace Binary64

theorem isAtMost_iff {x y : Binary64} (hx : x.isFinite = true) (hy : y.isFinite = true) :
    x.isAtMost y = true ↔ |x.value| ≤ |y.value| := by
  cases x with
  | nan => cases hx
  | infinity _ => cases hx
  | finite a m e he =>
    cases y with
    | nan => cases hy
    | infinity _ => cases hy
    | finite b n f hf =>
      have pos : (0 : ℚ) < (fraction m e).2 := by exact_mod_cast fraction_den_pos m e
      have pos' : (0 : ℚ) < (fraction n f).2 := by exact_mod_cast fraction_den_pos n f
      rw [isAtMost, decide_eq_true_eq, abs_value, abs_value, ← fraction_ratio, ← fraction_ratio,
        div_le_div_iff₀ pos pos']
      norm_cast

/-- The binary64 number nearest to a millionth. -/
def millionth : Binary64 := .ofDecimal false 1 (-6)

theorem millionth_eq : millionth = finite false 4722366482869645 (-72) (by decide) := by
  decide +kernel

theorem millionth_isFinite : millionth.isFinite = true := by
  rw [millionth_eq]
  rfl

theorem abs_millionth : |millionth.value| = millionth.value := by
  rw [millionth_eq, abs_value]
  simp [value]

theorem millionth_lt_one : millionth.value < 1 := by
  rw [millionth_eq, value]
  norm_num

section
variable {negative : Bool} {significand : ℕ} {exponent : ℤ} {h : Canonical significand exponent}

theorem whole?_eq_some_iff_abs (n : ℕ) : (finite negative significand exponent h).whole? = some n ↔
    |(finite negative significand exponent h).value| = n := by
  rw [whole?_eq_some_iff, abs_value]

theorem whole?_of_value {n : ℤ} (whole : (finite negative significand exponent h).value = n) :
    (finite negative significand exponent h).whole? = some n.natAbs := by
  rw [whole?_eq_some_iff_abs, whole, Nat.cast_natAbs, Int.cast_abs]

/-- Numbers with a fraction part are small. -/
theorem abs_lt_of_fraction (notWhole : (finite negative significand exponent h).whole? = none) :
    |(finite negative significand exponent h).value| < 10 ^ 21 := by
  have below : exponent < 0 := by
    by_contra above
    obtain ⟨k, rfl⟩ := Int.eq_ofNat_of_zero_le (not_lt.mp above)
    have whole := (whole?_eq_some_iff negative h (significand * 2 ^ k)).mpr (by push_cast; simp)
    rw [notWhole] at whole
    cases whole
  have bits : (significand : ℚ) ≤ 2 ^ 53 := by exact_mod_cast h.1.le
  rw [abs_value]
  calc (significand : ℚ) * 2 ^ exponent
      ≤ 2 ^ 53 * 1 := by
        gcongr
        exact zpow_le_one_of_nonpos₀ (by norm_num) below.le
    _ < 10 ^ 21 := by norm_num

end
end Binary64

/-! ## Notations -/

/-- The notation of a finite number: scientific for fractions below a millionth and for numbers from
`10 ^ 21` on, the exponent without leading zeros, and without a fraction part for the other whole
numbers. The sign of the exponent is always spelled. -/
structure Json.Spelling.Notates (s : Json.Spelling) (x : Binary64) : Prop where
  valid : s.Valid
  scientific : s.exponent.isSome = true ↔
    0 < |x.value| ∧ |x.value| < Binary64.millionth.value ∨ 10 ^ 21 ≤ |x.value|
  exponent : ∀ sign digits, s.exponent = some (sign, digits) → Significant.IsWhole digits
  whole : ∀ n : ℤ, x.value = n → |x.value| < 10 ^ 21 → s.fraction = []

namespace Binary64

section
variable {negative : Bool} {significand : ℕ} {exponent : ℤ} {h : Canonical significand exponent}

theorem rendered_whole_notation {n : ℕ}
    (whole : (finite negative significand exponent h).whole? = some n) (small : n < 10 ^ 21) :
    ∃ s : Json.Spelling, s.Notates (finite negative significand exponent h) ∧
      (finite negative significand exponent h).rendered = .ok s.text := by
  have value := (whole?_eq_some_iff_abs n).mp whole
  refine ⟨_, ⟨Json.numeral_valid (if negative then -n else n), ?_, by simp, fun _ _ _ => rfl⟩, ?_⟩
  · rw [value, Option.isSome_none]
    refine iff_of_false Bool.false_ne_true ?_
    rintro (⟨positive, tiny⟩ | large)
    · have one : (1 : ℚ) ≤ n := by exact_mod_cast positive
      exact absurd (one.trans_lt tiny) (not_lt.mpr millionth_lt_one.le)
    · exact absurd (by exact_mod_cast large) (not_le.mpr small)
  · simp only [rendered, whole]
    rw [if_pos (show n < Nat.pow 10 21 from small), Json.numeral_eq_text]

theorem rendered_scientific_notation (notZero : significand ≠ 0)
    (renders : (finite negative significand exponent h).rendered =
      .ok (signed negative (rendered.scientific significand exponent)))
    (range : 0 < |(finite negative significand exponent h).value| ∧
        |(finite negative significand exponent h).value| < millionth.value ∨
      10 ^ 21 ≤ |(finite negative significand exponent h).value|)
    (onlyLarge : ∀ n : ℤ, (finite negative significand exponent h).value = n →
      10 ^ 21 ≤ |(finite negative significand exponent h).value|) :
    ∃ s : Json.Spelling, s.Notates (finite negative significand exponent h) ∧
      (finite negative significand exponent h).rendered = .ok s.text := by
  refine ⟨.scientific negative (shortest significand exponent).significant
      (digitsOf (shortest significand exponent).significant.exponent.natAbs),
    ⟨Json.Spelling.scientific_valid negative (shortest_normal h notZero)
      Nat.toDigits_ne_nil fun _ => isDigit_of_mem_digitsOf, iff_of_true rfl range, ?_, ?_⟩,
    by rw [renders, scientific_eq_text]⟩
  · rintro sign digits spelled
    cases spelled
    exact Json.digitsOf_isWhole _
  · exact fun n isWhole small => absurd (onlyLarge n isWhole) (not_le.mpr small)

theorem rendered_fraction_notation
    (notWhole : (finite negative significand exponent h).whole? = none) :
    ∃ s : Json.Spelling, s.Notates (finite negative significand exponent h) ∧
      (finite negative significand exponent h).rendered = .ok s.text := by
  have notZero := significand_ne_zero notWhole (by simp)
  have noInteger : ∀ n : ℤ, (finite negative significand exponent h).value ≠ n := by
    intro n isWhole
    rw [whole?_of_value isWhole] at notWhole
    cases notWhole
  have atMost := isAtMost_iff millionth_isFinite
    (show (finite negative significand exponent h).isFinite = true from rfl)
  rw [abs_millionth] at atMost
  have normal := shortest_normal h notZero
  by_cases above : millionth.isAtMost (finite negative significand exponent h) = true
  · refine ⟨_, ⟨Json.Spelling.positional_valid negative
      (Significant.positional_isWhole normal) normal.digit, ?_, by simp [Json.Spelling.positional],
      fun n isWhole => absurd isWhole (noInteger n)⟩, ?_⟩
    · refine iff_of_false (by simp [Json.Spelling.positional]) ?_
      rintro (⟨-, tiny⟩ | large)
      · exact absurd tiny (not_lt.mpr (atMost.mp above))
      · exact absurd (abs_lt_of_fraction notWhole) (not_lt.mpr large)
    · rw [← positional_eq_text negative (positional_ne_nil notWhole)]
      simp only [rendered, notWhole]
      exact if_pos above
  · have positive : 0 < |(finite negative significand exponent h).value| :=
      abs_pos.mpr fun zero => noInteger 0 (by simpa using zero)
    refine rendered_scientific_notation notZero ?_
      (.inl ⟨positive, not_le.mp fun le => above (atMost.mpr le)⟩)
      fun n isWhole => absurd isWhole (noInteger n)
    simp only [rendered, notWhole]
    exact if_neg above

end

/-- The notations of the three kinds of finite numbers: fractions, small whole numbers and large
ones. -/
theorem rendered_notation {x : Binary64} (isFinite : x.isFinite = true) :
    ∃ s : Json.Spelling, s.Notates x ∧ x.rendered = .ok s.text := by
  cases x with
  | nan => cases isFinite
  | infinity _ => cases isFinite
  | finite negative significand exponent h =>
    cases whole : (finite negative significand exponent h).whole? with
    | none => exact rendered_fraction_notation whole
    | some n =>
      by_cases small : n < 10 ^ 21
      · exact rendered_whole_notation whole small
      · have large : 10 ^ 21 ≤ |(finite negative significand exponent h).value| := by
          rw [(whole?_eq_some_iff_abs n).mp whole]
          exact_mod_cast not_lt.mp small
        have notZero : some n ≠ some 0 := by
          rintro ⟨⟩
          exact small (by decide)
        refine rendered_scientific_notation (significand_ne_zero whole notZero) ?_ (.inr large)
          fun _ _ => large
        simp only [rendered, whole]
        exact if_neg small

/-! ## Reading back -/

/-- Small whole numbers are rendered as integers are, and zero without a sign. -/
theorem rendered_of_value {x : Binary64} (finite : x.isFinite = true) {n : ℤ} (value : x.value = n)
    (small : n.natAbs < 10 ^ 21) : x.rendered = .ok (numeral n) := by
  cases x with
  | nan => cases finite
  | infinity _ => cases finite
  | finite negative significand exponent h =>
    have signed : (if negative then -(n.natAbs : ℤ) else n.natAbs) = n := by
      have magnitude : (0 : ℚ) ≤ significand * 2 ^ exponent := by positivity
      cases negative with
      | false =>
        have nonneg : (0 : ℚ) ≤ n := by simpa [← value, Binary64.value] using magnitude
        have nonneg : 0 ≤ n := by exact_mod_cast nonneg
        exact Int.natAbs_of_nonneg nonneg
      | true =>
        have nonpos : (n : ℚ) ≤ 0 := by simpa [← value, Binary64.value] using magnitude
        have nonpos : n ≤ 0 := by exact_mod_cast nonpos
        rw [if_pos rfl, Int.ofNat_natAbs_of_nonpos nonpos, neg_neg]
    simp only [rendered, whole?_of_value value]
    rw [if_pos (show n.natAbs < Nat.pow 10 21 from small), signed]

theorem rendered_zero {x : Binary64} (isZero : x.isZero = true) : x.rendered = .ok (numeral 0) := by
  cases x with
  | nan => cases isZero
  | infinity _ => cases isZero
  | finite negative significand exponent h =>
    have noBits : significand = 0 := beq_iff_eq.mp isZero
    exact rendered_of_value rfl (by simp [value, noBits]) (by decide)

theorem nearest?_rendered {x : Binary64} {text : List Char} (renders : x.rendered = .ok text) :
    Json.nearest? text = some (if x.isZero then .zero false else x) := by
  split
  · next isZero =>
    cases renders.symm.trans (rendered_zero isZero)
    exact Json.nearest?_numeral 0
  · next notZero =>
    cases x with
    | nan => cases renders
    | infinity _ => cases renders
    | finite negative significand exponent h =>
      have denoted :=
        Number.rendered_denotes (n := .float (finite negative significand exponent h)) rfl
      obtain ⟨text', renders', denotes⟩ := denoted
      cases renders.symm.trans renders'
      obtain ⟨x, y, nearest, literal, equal | ⟨-, isZero⟩⟩ := denotes.rounded
      all_goals cases Json.nearest?_literal.symm.trans literal
      · rw [nearest, equal]
      · exact absurd isZero notZero

end Binary64

namespace Number

theorem writable_of_rendered {n : Number} {text : List Char} (renders : n.rendered = .ok text) :
    Json.unwritableNumber? true n = none := by
  cases n with
  | int n =>
    rw [rendered, writtenNumeral] at renders
    split at renders
    · cases renders
    · next short => exact if_neg short
  | float x =>
    cases x with
    | nan => cases renders
    | infinity _ => cases renders
    | finite negative significand exponent h => rfl

/-- What a number is rendered as is read as a number of the same value. -/
theorem readNumber_rendered {n : Number} {text : List Char} (renders : n.rendered = .ok text) :
    ∃ m : Number, Json.readNumber text = .ok (.number m, []) ∧ m.value = n.value := by
  obtain ⟨text', renders', denotes⟩ := rendered_denotes (writable_of_rendered renders)
  cases renders.symm.trans renders'
  obtain ⟨m, reads, rfl | ⟨k, rfl, equal⟩⟩ := denotes.read
  · exact ⟨m, reads, rfl⟩
  · exact ⟨_, reads, equal⟩

theorem value_eq_of_rendered {m n : Number} {text : List Char} (hm : m.rendered = .ok text)
    (hn : n.rendered = .ok text) : m.value = n.value := by
  obtain ⟨a, readsA, valueA⟩ := readNumber_rendered hm
  obtain ⟨b, readsB, valueB⟩ := readNumber_rendered hn
  cases readsA.symm.trans readsB
  exact valueA.symm.trans valueB

/-- An integer is rendered as its decimal numeral, unless that has too many digits. A finite binary64
number is rendered in its notation, and the nearest binary64 number to the text is the number again,
the sign of zero apart. Numbers that are rendered alike have one value. -/
theorem rendered_exact :
    (∀ n : ℤ, (int n).rendered =
      if n.natAbs < 10 ^ maxDigits then .ok (toString n).toList else .error .numeralTooLong) ∧
    (∀ x : Binary64, x.isFinite = true → ∃ s : Json.Spelling, s.Notates x ∧
      (float x).rendered = .ok s.text ∧
      Json.nearest? s.text = some (if x.isZero then .zero false else x)) ∧
    ∀ (m n : Number) (text : List Char), m.rendered = .ok text → n.rendered = .ok text →
      m.value = n.value := by
  refine ⟨rendered_int, fun x isFinite => ?_, fun _ _ _ => value_eq_of_rendered⟩
  obtain ⟨s, notates, renders⟩ := Binary64.rendered_notation isFinite
  exact ⟨s, notates, renders, Binary64.nearest?_rendered renders⟩

/-- A ten-millionth has an exponent, and sixteen is rendered alike whether it is an integer or not. -/
theorem rendered_exact_sixteen :
    (∃ s : Json.Spelling, s.Notates (.ofDecimal false 1 (-7)) ∧
      (float (.ofDecimal false 1 (-7))).rendered = .ok s.text ∧
      Json.nearest? s.text = some (.ofDecimal false 1 (-7))) ∧
    (float (.ofDecimal false 1 (-7))).rendered = .ok ['1', 'e', '-', '7'] ∧
    (int 16).rendered = .ok ['1', '6'] ∧
    (float (.ofDecimal false 16 0)).rendered = .ok ['1', '6'] ∧
    (int 16).value = (float (.ofDecimal false 16 0)).value := by
  have integer : (int 16).rendered = .ok ['1', '6'] := by decide +kernel
  have binary : (float (.ofDecimal false 16 0)).rendered = .ok ['1', '6'] := by decide +kernel
  have finite : (Binary64.ofDecimal false 1 (-7)).isFinite = true := by decide +kernel
  have notZero : (Binary64.ofDecimal false 1 (-7)).isZero = false := by decide +kernel
  obtain ⟨s, notates, renders, nearest⟩ := rendered_exact.2.1 _ finite
  refine ⟨⟨s, notates, renders, ?_⟩, by decide +kernel, integer, binary,
    rendered_exact.2.2 _ _ _ integer binary⟩
  rw [nearest, notZero]
  rfl

theorem rendered_power {k : ℕ} (large : maxDigits ≤ k) :
    (int (10 ^ k)).rendered = .error .numeralTooLong := by
  have magnitude : (10 ^ k : ℤ).natAbs = 10 ^ k := Int.natAbs_pow 10 k
  have notShort := not_lt.mpr (Nat.pow_le_pow_right (show 10 > 0 by decide) large)
  rw [rendered_int, magnitude, if_neg notShort]

/-- The least natural number with too many digits has no rendering, although it has a numeral. -/
theorem rendered_too_long : (int (10 ^ 4300)).rendered = .error .numeralTooLong ∧
    (int (10 ^ 4300)).rendered ≠ .ok (toString (10 ^ 4300 : ℤ)).toList := by
  have tooLong := rendered_power (le_refl maxDigits)
  exact ⟨tooLong, fun renders => nomatch tooLong.symm.trans renders⟩

end Number
end DesignSystem
