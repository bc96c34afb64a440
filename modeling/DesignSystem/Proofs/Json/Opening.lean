import DesignSystem.Proofs.Json.Numeral
import DesignSystem.Proofs.Json.Rendering

/-! # How the texts of documents begin

The first character of a text tells whether it is a number, a container or another scalar.

* `Json.numberLiteral_eq_text`, `Json.readNumber_literal`: the literals of numbers.
* `Json.OpensNumber`, `Json.OpensDocument`: what the texts of numbers and documents begin with.
* `Json.readValue_scalar`, `Json.readValue_bracket`, `Json.readValue_brace`: how a text is read by
  its first character.
-/

namespace DesignSystem
set_option autoImplicit false

namespace Json

/-! ## Numbers -/

theorem writable_int {finiteOnly : Bool} {n : ℤ}
    (h : unwritableNumber? finiteOnly (.int n) = none) :
    (digitsOf n.natAbs).length ≤ maxDigits := by
  simp only [unwritableNumber?] at h
  split at h
  · cases h
  · next short => exact Nat.le_of_not_lt short

theorem writable_float {x : Binary64} (h : unwritableNumber? true (.float x) = none) :
    x.isFinite = true := by
  simpa [unwritableNumber?] using h

/-- A binary64 number that is not finite has a word instead of digits. -/
theorem exists_word {x : Binary64} (infinite : x.isFinite = false) :
    ∃ word : SpecialWord, word.value = x ∧ numberLiteral (.float x) = word.text.toList := by
  cases x with
  | nan => exact ⟨.nan, rfl, rfl⟩
  | infinity negative =>
    cases negative with
    | false => exact ⟨.infinity, rfl, rfl⟩
    | true => exact ⟨.negativeInfinity, rfl, rfl⟩
  | finite _ _ _ _ => cases infinite

theorem float_eq_text {x : Binary64} (finite : x.isFinite = true) :
    ∃ s : Spelling, s.Valid ∧ numberLiteral (.float x) = s.text := by
  cases x with
  | nan => cases finite
  | infinity _ => cases finite
  | finite negative significand exponent _ =>
    exact ⟨_, sourceSpelling_valid negative (shortest_isSource significand exponent),
      source_eq_text negative significand exponent⟩

/-- The literal of a number that is written follows the grammar. -/
theorem numberLiteral_eq_text {n : Number} (h : unwritableNumber? true n = none) :
    ∃ s : Spelling, s.Valid ∧ numberLiteral n = s.text := by
  cases n with
  | int n => exact ⟨_, numeral_valid n, numeral_eq_text n⟩
  | float x => exact float_eq_text (writable_float h)

theorem readNumber_literal {n : Number} (h : unwritableNumber? true n = none) {rest : List Char}
    (hr : EndsNumeral rest) : readNumber (numberLiteral n ++ rest) = .ok (.number n, rest) := by
  cases n with
  | int n => exact readNumber_numeral (writable_int h) hr
  | float x => exact readNumber_source (writable_float h) specialWords hr

/-- A text that begins with a digit, a minus sign in front of it at most. -/
def OpensNumber (text : List Char) : Prop :=
  ∃ c cs, c.isDigit = true ∧ (text = c :: cs ∨ text = '-' :: c :: cs)

theorem opensNumber_signed {whole : List Char} (isWhole : Significant.IsWhole whole)
    (negative : Bool) (rest : List Char) :
    OpensNumber (Binary64.signed negative (whole ++ rest)) := by
  obtain ⟨c, cs, rfl, digit⟩ := isWhole.exists_cons
  refine ⟨c, cs ++ rest, digit, ?_⟩
  cases negative with
  | false => exact .inl rfl
  | true => exact .inr rfl

theorem OpensNumber.append {text : List Char} (h : OpensNumber text) (rest : List Char) :
    OpensNumber (text ++ rest) := by
  obtain ⟨c, cs, digit, rfl | rfl⟩ := h
  · exact ⟨c, cs ++ rest, digit, .inl rfl⟩
  · exact ⟨c, cs ++ rest, digit, .inr rfl⟩

theorem readScalar_number (acceptSpecial : Bool) {text : List Char} (h : OpensNumber text) :
    readScalar acceptSpecial text = readNumber text := by
  obtain ⟨c, cs, digit, rfl | rfl⟩ := h
  · unfold readScalar
    split <;> first | rfl | (next e => cases e; cases digit)
  · unfold readScalar
    split <;> first | rfl | (next e => cases e <;> cases digit)

/-! ## Blanks -/

theorem skipBlanks_append {gap : List Char} (h : ∀ c ∈ gap, isBlank c = true) (rest : List Char) :
    skipBlanks (gap ++ rest) = skipBlanks rest :=
  List.dropWhile_append_of_pos h

theorem skipBlanks_cons {c : Char} (h : isBlank c = false) (rest : List Char) :
    skipBlanks (c :: rest) = c :: rest := by
  simp [skipBlanks, h]

theorem edge_isBlank (style : Style) (depth : Nat) {c : Char} (h : c ∈ style.edge depth) :
    isBlank c = true := by
  unfold Style.edge at h
  split at h
  · cases h
  · rcases List.mem_cons.mp h with rfl | blank
    · rfl
    · rw [List.eq_of_mem_replicate blank]
      rfl

/-- A separator is a comma and blanks. -/
theorem separator_eq (style : Style) (depth : Nat) :
    ∃ gap, style.separator depth = ',' :: gap ∧ ∀ c ∈ gap, isBlank c = true := by
  unfold Style.separator
  split
  · exact ⟨[' '], rfl, by simp [isBlank]⟩
  · refine ⟨_, rfl, fun c mem => ?_⟩
    rcases List.mem_cons.mp mem with rfl | blank
    · rfl
    · rw [List.eq_of_mem_replicate blank]
      rfl

theorem EndsNumeral.cons {c : Char} (rest : List Char)
    (h : c.isDigit = false ∧ c ≠ '.' ∧ c ≠ 'e' ∧ c ≠ 'E') : EndsNumeral (c :: rest) := by
  intro d ds e
  cases e
  exact h

/-! ## The first character -/

/-- A text that begins as a document does. -/
def OpensDocument (text : List Char) : Prop :=
  ∃ c cs, text = c :: cs ∧ isBlank c = false ∧ c ≠ ']' ∧ c ≠ '\x7d' ∧ c ≠ '\uFEFF'

theorem OpensDocument.append {text : List Char} (h : OpensDocument text) (rest : List Char) :
    OpensDocument (text ++ rest) := by
  obtain ⟨c, cs, rfl, first⟩ := h
  exact ⟨c, cs ++ rest, rfl, first⟩

theorem OpensDocument.skipBlanks {text : List Char} (h : OpensDocument text) :
    skipBlanks text = text := by
  obtain ⟨c, cs, rfl, blank, -⟩ := h
  exact skipBlanks_cons blank cs

theorem isDigit_ne {c d : Char} (hc : c.isDigit = true) (hd : d.isDigit = false) : c ≠ d := by
  rintro rfl
  rw [hc] at hd
  cases hd

theorem OpensNumber.document {text : List Char} (h : OpensNumber text) : OpensDocument text := by
  obtain ⟨c, cs, digit, rfl | rfl⟩ := h
  · refine ⟨c, cs, rfl, ?_, isDigit_ne digit rfl, isDigit_ne digit rfl, isDigit_ne digit rfl⟩
    simp only [isBlank, Bool.or_eq_false_iff, beq_eq_false_iff_ne]
    exact ⟨⟨⟨isDigit_ne digit rfl, isDigit_ne digit rfl⟩, isDigit_ne digit rfl⟩,
      isDigit_ne digit rfl⟩
  · exact ⟨'-', c :: cs, rfl, by decide⟩

/-! ## Reading by the first character -/

theorem readValue_scalar {acceptSpecial : Bool} {fuel : Nat} (hf : 0 < fuel) {text : List Char}
    (brace : ∀ cs, text ≠ '\x7b' :: cs) (bracket : ∀ cs, text ≠ '[' :: cs) :
    readValue acceptSpecial fuel text = readScalar acceptSpecial text := by
  obtain ⟨fuel, rfl⟩ := Nat.exists_eq_add_one_of_ne_zero (Nat.ne_of_gt hf)
  rw [readValue]
  · exact brace
  · exact bracket

variable {acceptSpecial : Bool}

theorem readValue_bracket {fuel : Nat} {text inner : List Char} (start : skipBlanks text = inner)
    (opens : OpensDocument inner) : readValue acceptSpecial (fuel + 1) ('[' :: text) =
      (readItems acceptSpecial fuel inner).map fun (items, rest) => (.array items, rest) := by
  obtain ⟨c, cs, rfl, -, bracket, -⟩ := opens
  rw [readValue, start]
  split
  · next e => exact absurd (List.cons.inj e).1 bracket
  · cases readItems acceptSpecial fuel (c :: cs) <;> rfl

theorem readValue_brace {fuel : Nat} {text inner : List Char} (start : skipBlanks text = inner)
    (opens : OpensDocument inner) : readValue acceptSpecial (fuel + 1) ('\x7b' :: text) =
      (readFields acceptSpecial fuel inner).map fun (fields, rest) =>
        (.object (collect fields), rest) := by
  obtain ⟨c, cs, rfl, -, -, brace, -⟩ := opens
  rw [readValue, start]
  split
  · next e => exact absurd (List.cons.inj e).1 brace
  · cases readFields acceptSpecial fuel (c :: cs) <;> rfl

end Json
end DesignSystem
