import DesignSystem.Json.Reader
import DesignSystem.Json.Writer
import DesignSystem.Proofs.Number.Significant

/-! # Numerals are read back

* `EndsNumeral`: a text that does not continue a numeral before it.
* `Spelling`: the parts of a numeral as they are spelled, with the grammar they follow.
* `readNumber_numeral`, `readNumber_source`: the literals of integers and of finite binary64 numbers
  are read as these numbers.
-/

namespace DesignSystem
set_option autoImplicit false

namespace Json

/-! ## Runs of digits -/

/-- A text that does not continue a run of digits. -/
def EndsDigits (rest : List Char) : Prop := ∀ c cs, rest = c :: cs → c.isDigit = false

/-- A text that does not continue a numeral. -/
def EndsNumeral (rest : List Char) : Prop :=
  ∀ c cs, rest = c :: cs → c.isDigit = false ∧ c ≠ '.' ∧ c ≠ 'e' ∧ c ≠ 'E'

theorem EndsNumeral.digits {rest : List Char} (h : EndsNumeral rest) : EndsDigits rest :=
  fun c cs e => (h c cs e).1

theorem endsNumeral_nil : EndsNumeral [] := fun _ _ e => nomatch e

theorem EndsDigits.cons {c : Char} (rest : List Char) (h : c.isDigit = false) :
    EndsDigits (c :: rest) := by
  intro d ds e
  cases e
  exact h

theorem span_digits {digits rest : List Char} (hd : ∀ c ∈ digits, c.isDigit = true)
    (hr : EndsDigits rest) : (digits ++ rest).span Char.isDigit = (digits, rest) := by
  rw [List.span_eq_takeWhile_dropWhile]
  have stop : rest.takeWhile Char.isDigit = [] ∧ rest.dropWhile Char.isDigit = rest := by
    cases rest with
    | nil => exact ⟨rfl, rfl⟩
    | cons c cs => simp [hr c cs rfl]
  rw [List.takeWhile_append_of_pos hd, List.dropWhile_append_of_pos hd, stop.1, stop.2,
    List.append_nil]

/-! ## Spelled numerals -/

/-- The signs and digits of a numeral as they are spelled. -/
structure Spelling where
  negative : Bool
  whole : List Char
  fraction : List Char
  /-- The sign and the digits of the exponent, if there is one. -/
  exponent : Option (Bool × List Char)

namespace Spelling

/-- The point and the digits after it, if there are any. -/
def pointed : List Char → List Char
  | [] => []
  | fraction => '.' :: fraction

/-- The exponent behind its letter. -/
def scaledBy : Option (Bool × List Char) → List Char
  | none => []
  | some (negative, digits) => 'e' :: (if negative then '-' else '+') :: digits

def text (s : Spelling) : List Char :=
  Binary64.signed s.negative (s.whole ++ (pointed s.fraction ++ scaledBy s.exponent))

/-- The grammar of numerals. -/
structure Valid (s : Spelling) : Prop where
  whole : Significant.IsWhole s.whole
  fraction : ∀ c ∈ s.fraction, c.isDigit = true
  exponent : ∀ sign digits, s.exponent = some (sign, digits) →
    digits ≠ [] ∧ ∀ c ∈ digits, c.isDigit = true

/-- The power of ten that an exponent spells. -/
def power : Bool × List Char → ℤ
  | (negative, digits) => if negative then -(digitsValue digits : ℤ) else digitsValue digits

def parts (s : Spelling) : NumeralParts := ⟨s.negative, s.whole, s.fraction, s.exponent.map power⟩

theorem endsDigits_scaledBy (exponent : Option (Bool × List Char)) {rest : List Char}
    (h : EndsNumeral rest) : EndsDigits (scaledBy exponent ++ rest) := by
  cases exponent with
  | none => exact h.digits
  | some _ => exact .cons _ rfl

theorem endsDigits_pointed (fraction : List Char) {rest : List Char} (h : EndsDigits rest) :
    EndsDigits (pointed fraction ++ rest) := by
  cases fraction with
  | nil => exact h
  | cons _ _ => exact .cons _ rfl

theorem wholePart_append {whole rest : List Char} (h : Significant.IsWhole whole)
    (hr : EndsDigits rest) : wholePart (whole ++ rest) = (whole, rest) := by
  rcases h with rfl | ⟨digit, c, cs, rfl, hc⟩
  · rfl
  · rw [List.cons_append, wholePart]
    · exact span_digits digit hr
    · intro cs e
      exact hc (List.cons.inj e).1

theorem fractionPart_append {fraction rest : List Char}
    (h : ∀ c ∈ fraction, c.isDigit = true) (hr : EndsDigits rest)
    (point : ∀ cs, rest ≠ '.' :: cs) :
    fractionPart (pointed fraction ++ rest) = (fraction, rest) := by
  cases fraction with
  | nil => rw [pointed, List.nil_append, fractionPart]; exact point
  | cons c cs =>
    have span := span_digits h hr
    rw [List.cons_append] at span
    simp only [pointed, List.cons_append, fractionPart, span]

theorem exponentPart_append {exponent : Option (Bool × List Char)} {rest : List Char}
    (h : ∀ sign digits, exponent = some (sign, digits) →
      digits ≠ [] ∧ ∀ c ∈ digits, c.isDigit = true) (hr : EndsNumeral rest) :
    exponentPart (scaledBy exponent ++ rest) = (exponent.map power, rest) := by
  cases exponent with
  | none =>
    cases rest with
    | nil => rfl
    | cons c cs =>
      obtain ⟨-, -, lower, upper⟩ := hr c cs rfl
      simp [scaledBy, exponentPart, lower, upper]
  | some spelled =>
    obtain ⟨sign, digits⟩ := spelled
    obtain ⟨first, digit⟩ := h sign digits rfl
    cases digits with
    | nil => exact absurd rfl first
    | cons d ds =>
      have span := span_digits digit hr.digits
      rw [List.cons_append] at span
      cases sign <;>
        simp only [scaledBy, List.cons_append, exponentPart, exponentSign, span, power,
          beq_self_eq_true, Bool.true_or, if_true, Bool.false_eq_true, if_false, Option.map_some]

theorem numeralParts?_text {s : Spelling} (valid : s.Valid) {rest : List Char}
    (hr : EndsNumeral rest) : numeralParts? (s.text ++ rest) = some (s.parts, rest) := by
  obtain ⟨negative, whole, fraction, exponent⟩ := s
  obtain ⟨hw, hf, he⟩ := valid
  simp only at hw hf he
  have ends := endsDigits_scaledBy exponent hr
  have wholeRead := wholePart_append hw (endsDigits_pointed fraction ends)
  have point : ∀ cs, scaledBy exponent ++ rest ≠ '.' :: cs := by
    cases exponent with
    | none => exact fun cs e => (hr _ cs e).2.1 rfl
    | some _ => exact fun cs e => by simp [scaledBy] at e
  have fractionRead := fractionPart_append hf ends point
  have exponentRead := exponentPart_append he hr
  obtain ⟨c, cs, first, minus⟩ : ∃ c cs, whole = c :: cs ∧ c ≠ '-' := by
    rcases hw with rfl | ⟨digit, c, cs, rfl, -⟩
    · exact ⟨'0', [], rfl, by decide⟩
    · refine ⟨c, cs, rfl, ?_⟩
      rintro rfl
      exact absurd (digit '-' (by simp)) (by decide)
  subst first
  rw [List.cons_append] at wholeRead
  cases negative with
  | false =>
    simp [text, Binary64.signed, numeralParts?, minus, wholeRead, fractionRead, exponentRead, parts]
  | true =>
    simp [text, Binary64.signed, numeralParts?, wholeRead, fractionRead, exponentRead, parts]

end Spelling

/-! ## The characters of numerals -/

def isNumeralChar (c : Char) : Bool :=
  c.isDigit || c == '.' || c == 'e' || c == 'E' || c == '+' || c == '-'

theorem isNumeralChar_digit {c : Char} (h : c.isDigit = true) : isNumeralChar c = true := by
  simp [isNumeralChar, h]

namespace Spelling

theorem isNumeralChar_pointed {fraction : List Char}
    (digits : ∀ c ∈ fraction, c.isDigit = true) :
    ∀ c ∈ pointed fraction, isNumeralChar c = true := by
  intro c mem
  cases fraction with
  | nil => cases mem
  | cons d ds =>
    rcases List.mem_cons.mp mem with rfl | digit
    · rfl
    · exact isNumeralChar_digit (digits c digit)

theorem isNumeralChar_scaledBy {exponent : Option (Bool × List Char)}
    (digits : ∀ sign ds, exponent = some (sign, ds) → ∀ c ∈ ds, c.isDigit = true) :
    ∀ c ∈ scaledBy exponent, isNumeralChar c = true := by
  intro c mem
  cases exponent with
  | none => cases mem
  | some spelled =>
    obtain ⟨sign, ds⟩ := spelled
    rcases List.mem_cons.mp mem with rfl | mem
    · rfl
    · rcases List.mem_cons.mp mem with rfl | digit
      · cases sign <;> rfl
      · exact isNumeralChar_digit (digits sign ds rfl c digit)

theorem Valid.isNumeralChar {s : Spelling} (valid : s.Valid) {c : Char} (mem : c ∈ s.text) :
    isNumeralChar c = true := by
  have unsigned : ∀ d ∈ s.whole ++ (pointed s.fraction ++ scaledBy s.exponent),
      Json.isNumeralChar d = true := by
    intro d mem
    rcases List.mem_append.mp mem with digit | mem
    · exact isNumeralChar_digit (valid.whole.isDigit d digit)
    · rcases List.mem_append.mp mem with mem | mem
      · exact isNumeralChar_pointed valid.fraction d mem
      · exact isNumeralChar_scaledBy (fun sign ds e => (valid.exponent sign ds e).2) d mem
  rw [text, Binary64.signed] at mem
  split at mem
  · rcases List.mem_cons.mp mem with rfl | mem
    · rfl
    · exact unsigned c mem
  · exact unsigned c mem

end Spelling

/-! ## Numerals of numbers -/

theorem numeral_eq_text (n : ℤ) :
    numeral n = Spelling.text ⟨decide (n < 0), digitsOf n.natAbs, [], none⟩ := by
  simp only [numeral, Spelling.text, Spelling.pointed, Spelling.scaledBy, Binary64.signed,
    List.append_nil, decide_eq_true_eq]

theorem digitsOf_isWhole (n : ℕ) : Significant.IsWhole (digitsOf n) := by
  by_cases h : n = 0
  · exact .inl (by simp [h, digitsOf])
  · exact .inr ⟨fun c hc => isDigit_of_mem_digitsOf hc, digitsOf_leading h⟩

theorem numeral_valid (n : ℤ) :
    Spelling.Valid ⟨decide (n < 0), digitsOf n.natAbs, [], none⟩ where
  whole := digitsOf_isWhole n.natAbs
  fraction := by simp
  exponent := by simp

theorem digitsValue_digitsOf (n : ℕ) : digitsValue (digitsOf n) = n :=
  Nat.ofDigitChars_ten_toDigits

/-- A numeral of not too many digits is read as its integer. -/
theorem readNumber_numeral {n : ℤ} (h : (digitsOf n.natAbs).length ≤ maxDigits) {rest : List Char}
    (hr : EndsNumeral rest) : readNumber (numeral n ++ rest) = .ok (.number (.int n), rest) := by
  have value : NumeralParts.int ⟨decide (n < 0), digitsOf n.natAbs, [], none⟩ = n := by
    simp only [NumeralParts.int, digitsValue_digitsOf, decide_eq_true_eq]
    split <;> omega
  rw [numeral_eq_text, readNumber, Spelling.numeralParts?_text (numeral_valid n) hr]
  simp [Spelling.parts, NumeralParts.number, Nat.not_lt.2 h, value]

/-! ## Notations of significant digits -/

namespace Spelling

/-- The magnitude that a numeral spells. -/
def value (s : Spelling) : ℚ :=
  digitsValue (s.whole ++ s.fraction) * 10 ^ (s.parts.exponent.getD 0 - (s.fraction.length : ℤ))

/-- Positional notation, where a whole number has a zero for its fraction part. -/
def positional (negative : Bool) (s : Significant) : Spelling :=
  ⟨negative, s.positional.1, if s.positional.2 = [] then ['0'] else s.positional.2, none⟩

/-- Scientific notation with the digits of its exponent. -/
def scientific (negative : Bool) (s : Significant) (exponent : List Char) : Spelling :=
  ⟨negative, s.digits.take 1, s.digits.drop 1, some (decide (s.exponent < 0), exponent)⟩

theorem positional_valid (negative : Bool) {s : Significant}
    (whole : Significant.IsWhole s.positional.1) (digit : ∀ c ∈ s.digits, c.isDigit = true) :
    (positional negative s).Valid := by
  refine ⟨whole, fun c hc => ?_, by simp [positional]⟩
  unfold positional at hc
  dsimp only at hc
  split at hc
  · rw [List.mem_singleton.1 hc]
    rfl
  · exact Significant.positional_isDigit digit c hc

theorem positional_value (negative : Bool) (s : Significant) :
    (positional negative s).value = s.value := by
  rw [← Significant.positional_value]
  unfold positional value parts
  dsimp only [Option.map_none, Option.getD_none]
  split
  · next none =>
    rw [none, List.append_nil, digitsValue, ofDigitChars_append_eq]
    simp [Nat.ofDigitChars_cons]
  · rw [zero_sub, digitsValue]

theorem scientific_valid (negative : Bool) {s : Significant} (h : s.Normal)
    {exponent : List Char} (first : exponent ≠ []) (digit : ∀ c ∈ exponent, c.isDigit = true) :
    (scientific negative s exponent).Valid := by
  obtain ⟨digits, c, cs, leading, hc⟩ := h
  refine ⟨.inr ⟨fun x hx => digits x (List.mem_of_mem_take hx), c, [], ?_, hc⟩,
    fun x hx => digits x (List.mem_of_mem_drop hx), ?_⟩
  · simp [scientific, leading]
  · rintro sign spelled e
    cases e
    exact ⟨first, digit⟩

theorem scientific_value (negative : Bool) {s : Significant} (h : s.digits ≠ [])
    {exponent : List Char} (he : digitsValue exponent = s.exponent.natAbs) :
    (scientific negative s exponent).value = s.value := by
  have power : Spelling.power (decide (s.exponent < 0), exponent) = s.exponent := by
    simp only [Spelling.power, he, decide_eq_true_eq]
    split <;> omega
  have length : 0 < s.digits.length := List.length_pos_iff.2 h
  unfold scientific value parts
  dsimp only [Option.map_some, Option.getD_some]
  rw [power, List.take_append_drop, Significant.value, digitsValue, Significant.exponent,
    List.length_drop]
  congr 2
  omega

/-- The binary64 number nearest to the value that a numeral spells. -/
theorem float_eq {s : Spelling} {digits : ℕ} {exponent : ℤ}
    (value : s.value = digits * 10 ^ exponent) :
    s.parts.float = .ofDecimal s.negative digits exponent :=
  Binary64.ofDecimal_congr s.negative value

/-- A numeral with a fraction part or an exponent is read as the binary64 number nearest to the
value it spells. -/
theorem readNumber_text {s : Spelling} (valid : s.Valid)
    (float : s.fraction ≠ [] ∨ s.exponent ≠ none) {digits : ℕ} {exponent : ℤ}
    (value : s.value = digits * 10 ^ exponent) {rest : List Char} (hr : EndsNumeral rest) :
    readNumber (s.text ++ rest) =
      .ok (.number (.float (.ofDecimal s.negative digits exponent)), rest) := by
  have isFloat : (s.parts.fraction.isEmpty && s.parts.exponent.isNone) = false := by
    rcases float with h | h
    · simp [parts, h]
    · cases he : s.exponent with
      | none => exact absurd he h
      | some _ => simp [parts, he]
  rw [readNumber, numeralParts?_text valid hr]
  simp only [NumeralParts.number, isFloat, Bool.false_eq_true, if_false, float_eq value]
  rfl

end Spelling

/-! ## Source literals of binary64 numbers -/

/-- The digits of an exponent, at least two. -/
def exponentDigits (exponent : ℕ) : List Char :=
  if (digitsOf exponent).length < 2 then '0' :: digitsOf exponent else digitsOf exponent

theorem digitsValue_exponentDigits (exponent : ℕ) :
    digitsValue (exponentDigits exponent) = exponent := by
  unfold exponentDigits
  split
  · rw [digitsValue, ofDigitChars_zero_cons]
    exact digitsValue_digitsOf exponent
  · exact digitsValue_digitsOf exponent

theorem isDigit_of_mem_exponentDigits {n : ℕ} {c : Char} (h : c ∈ exponentDigits n) :
    c.isDigit = true := by
  unfold exponentDigits at h
  split at h
  · rcases List.mem_cons.1 h with rfl | h
    · rfl
    · exact isDigit_of_mem_digitsOf h
  · exact isDigit_of_mem_digitsOf h

theorem exponentDigits_ne_nil (n : ℕ) : exponentDigits n ≠ [] := by
  unfold exponentDigits
  split
  · exact List.cons_ne_nil _ _
  · exact Nat.toDigits_ne_nil

/-- The source literal of significant digits, spelled out. -/
def sourceSpelling (negative : Bool) (s : Significant) : Spelling :=
  if -4 ≤ s.exponent ∧ s.exponent < 16 then .positional negative s
  else .scientific negative s (exponentDigits s.exponent.natAbs)

theorem source_eq_text (negative : Bool) (significand : ℕ) (exponent : ℤ) :
    Binary64.signed negative (Binary64.sourceMagnitude significand exponent) =
      (sourceSpelling negative (Binary64.shortest significand exponent).significant).text := by
  simp only [Binary64.sourceMagnitude, sourceSpelling]
  generalize (Binary64.shortest significand exponent).significant = s
  split
  · simp only [Spelling.text, Spelling.positional]
    cases hp : s.positional with
    | mk whole fraction => cases fraction <;> simp [Spelling.pointed, Spelling.scaledBy]
  · simp only [Spelling.text, Spelling.scientific, Binary64.mantissa, Significant.leading,
      Binary64.sourceExponent, Spelling.scaledBy, exponentDigits]
    cases s.digits.drop 1 <;> simp [Spelling.pointed]

/-- Digits that a source literal can be made of: normal ones, or those of zero. -/
def IsSource (s : Significant) : Prop := s.Normal ∨ s = ⟨[], 1⟩

theorem shortest_isSource (significand : ℕ) (exponent : ℤ) :
    IsSource (Binary64.shortest significand exponent).significant := by
  by_cases hz : (Binary64.shortest significand exponent).digits = 0
  · right
    simp [Decimal.significant, hz]
  · exact .inl (Decimal.significant_normal hz)

theorem sourceSpelling_valid (negative : Bool) {s : Significant} (h : IsSource s) :
    (sourceSpelling negative s).Valid := by
  unfold sourceSpelling
  split
  · rcases h with h | rfl
    · exact Spelling.positional_valid negative (Significant.positional_isWhole h) h.digit
    · exact Spelling.positional_valid negative (.inl rfl) (by simp)
  · next scientific =>
    rcases h with h | rfl
    · exact Spelling.scientific_valid negative h (exponentDigits_ne_nil _)
        fun _ => isDigit_of_mem_exponentDigits
    · exact absurd (by decide) scientific

/-- A source literal spells the value of its digits. -/
theorem sourceSpelling_value (negative : Bool) {s : Significant} (h : IsSource s) :
    (sourceSpelling negative s).value = s.value := by
  unfold sourceSpelling
  split
  · exact Spelling.positional_value negative s
  · next scientific =>
    rcases h with h | rfl
    · obtain ⟨c, cs, leading, -⟩ := h.leading
      exact Spelling.scientific_value negative (by simp [leading]) (digitsValue_exponentDigits _)
    · exact absurd (by decide) scientific

theorem sourceSpelling_isFloat (negative : Bool) (s : Significant) :
    (sourceSpelling negative s).fraction ≠ [] ∨ (sourceSpelling negative s).exponent ≠ none := by
  unfold sourceSpelling
  split
  · left
    unfold Spelling.positional
    dsimp only
    split
    · exact List.cons_ne_nil _ _
    · assumption
  · right
    simp [Spelling.scientific]

theorem ofDecimal_shortest (negative : Bool) {significand : ℕ} {exponent : ℤ}
    (h : Binary64.Canonical significand exponent) :
    Binary64.ofDecimal negative (Binary64.shortest significand exponent).digits
      (Binary64.shortest significand exponent).exponent =
        .finite negative significand exponent h := by
  by_cases hs : significand = 0
  · subst hs
    have he := h.exponent_of_zero
    subst he
    rfl
  · exact Binary64.ofDecimal_finite_sign (Binary64.shortest_readsBack h hs) negative

/-- The source literal of a finite number is read as the number. -/
theorem readNumber_source {x : Binary64} (h : x.isFinite = true) (words : SpecialWords)
    {rest : List Char} (hr : EndsNumeral rest) :
    readNumber (x.source words ++ rest) = .ok (.number (.float x), rest) := by
  cases x with
  | nan => cases h
  | infinity _ => cases h
  | finite negative significand exponent canonical =>
    have isSource := shortest_isSource significand exponent
    have value := (sourceSpelling_value negative isSource).trans (Decimal.significant_value _)
    have sign : (sourceSpelling negative
        (Binary64.shortest significand exponent).significant).negative = negative := by
      unfold sourceSpelling
      split <;> rfl
    rw [Binary64.source, source_eq_text, Spelling.readNumber_text
      (sourceSpelling_valid negative isSource) (sourceSpelling_isFloat negative _) value hr, sign,
      ofDecimal_shortest negative canonical]

end Json
end DesignSystem
