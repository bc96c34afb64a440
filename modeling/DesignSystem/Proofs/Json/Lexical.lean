import DesignSystem.Proofs.Json.Grammar
import DesignSystem.Proofs.Outcome

/-! # What numerals and string literals spell

Numerals and string literals are read exactly where the grammar has one, and for what it spells.

* `Json.NumeralParts.Spells`, `Json.numeralParts?_eq_some`, `Json.numeralParts?_spells`: the parts
  of a numeral.
* `Json.Quotes`, `Json.readString_eq_ok`: the code points of a string literal.
-/

namespace DesignSystem
set_option autoImplicit false

theorem Binary64.signed_append (negative : Bool) (text rest : List Char) :
    signed negative text ++ rest = signed negative (text ++ rest) := by
  cases negative <;> rfl

namespace Json

/-! ## Numerals -/

/-- The text of an exponent: nothing, or a letter, a sign at most and digits. -/
def SpellsExponent (text : List Char) (exponent : Option ℤ) : Prop :=
  (text = [] ∧ exponent = none) ∨ ∃ letter ∈ ['e', 'E'],
    ∃ sign ∈ [([], false), (['+'], false), (['-'], true)], ∃ digits, IsDigits digits ∧
      text = letter :: (sign.1 ++ digits) ∧ exponent = some (Spelling.power (sign.2, digits))

namespace NumeralParts

/-- The text of a numeral: a sign at most, digits without a leading zero, the digits after a point,
and an exponent. -/
def Spells (parts : NumeralParts) (text : List Char) : Prop :=
  Significant.IsWhole parts.whole ∧ (∀ c ∈ parts.fraction, c.isDigit = true) ∧
    ∃ exponent, SpellsExponent exponent parts.exponent ∧ text = Binary64.signed parts.negative
      (parts.whole ++ (Spelling.pointed parts.fraction ++ exponent))

/-- An integer with more digits than a conversion takes. -/
def IsLong (parts : NumeralParts) : Prop :=
  (parts.fraction.isEmpty && parts.exponent.isNone) = true ∧ maxDigits < parts.whole.length

/-- The number that a numeral denotes, however many digits it has. -/
def value (parts : NumeralParts) : Number :=
  if parts.fraction.isEmpty && parts.exponent.isNone then .int parts.int else .float parts.float

theorem number_of_long {parts : NumeralParts} (long : parts.IsLong) :
    parts.number = .error (.tooManyDigits parts.whole.length) := by
  rw [number, if_pos long.1, if_pos long.2]

theorem number_of_short {parts : NumeralParts} (short : ¬parts.IsLong) :
    parts.number = .ok parts.value := by
  rw [number, value]
  split
  · next integer => rw [if_neg fun long => short ⟨integer, long⟩]
  · rfl

end NumeralParts

theorem span_eq {text digits rest : List Char} (h : text.span Char.isDigit = (digits, rest)) :
    (∀ c ∈ digits, c.isDigit = true) ∧ text = digits ++ rest := by
  rw [List.span_eq_takeWhile_dropWhile] at h
  cases h
  exact ⟨fun c mem => List.all_eq_true.mp List.all_takeWhile c mem,
    List.takeWhile_append_dropWhile.symm⟩

theorem wholePart_eq {text whole rest : List Char} (h : wholePart text = (whole, rest))
    (first : whole ≠ []) : Significant.IsWhole whole ∧ text = whole ++ rest := by
  unfold wholePart at h
  split at h
  · cases h
    exact ⟨.inl rfl, rfl⟩
  · next zero =>
    obtain ⟨digits, rfl⟩ := span_eq h
    obtain ⟨c, cs, rfl⟩ := List.exists_cons_of_ne_nil first
    exact ⟨.inr ⟨digits, c, cs, rfl, fun e => zero (cs ++ rest) (by rw [e]; rfl)⟩, rfl⟩

theorem fractionPart_eq {text fraction rest : List Char}
    (h : fractionPart text = (fraction, rest)) :
    (∀ c ∈ fraction, c.isDigit = true) ∧ text = Spelling.pointed fraction ++ rest := by
  unfold fractionPart at h
  split at h
  · next after =>
    split at h
    · cases h
      exact ⟨by simp, rfl⟩
    · next other =>
      obtain ⟨digits, rfl⟩ := span_eq h
      obtain ⟨c, cs, rfl⟩ : ∃ c cs, fraction = c :: cs :=
        List.exists_cons_of_ne_nil fun e => other rest (by rw [h, e])
      exact ⟨digits, rfl⟩
  · cases h
    exact ⟨by simp, rfl⟩

theorem exponentSign_eq (text : List Char) :
    ∃ sign ∈ [([], false), (['+'], false), (['-'], true)],
      (exponentSign text).1 = sign.2 ∧ text = sign.1 ++ (exponentSign text).2 := by
  unfold exponentSign
  split
  · exact ⟨(['-'], true), by simp, rfl, rfl⟩
  · exact ⟨(['+'], false), by simp, rfl, rfl⟩
  · exact ⟨([], false), by simp, rfl, rfl⟩

theorem exponentPart_eq {text rest : List Char} {exponent : Option ℤ}
    (h : exponentPart text = (exponent, rest)) :
    ∃ used, SpellsExponent used exponent ∧ text = used ++ rest := by
  unfold exponentPart at h
  split at h
  · cases h
    exact ⟨[], .inl ⟨rfl, rfl⟩, rfl⟩
  · next c after =>
    split at h
    · next letter =>
      obtain ⟨sign, known, negative, signed⟩ := exponentSign_eq after
      dsimp only at h
      split at h
      · cases h
        exact ⟨[], .inl ⟨rfl, rfl⟩, rfl⟩
      · next digits others found spans =>
        cases h
        obtain ⟨isDigits, unsigned⟩ := span_eq spans
        refine ⟨c :: (sign.1 ++ digits), .inr ⟨c, by simpa using letter, sign, known, digits,
          ⟨fun e => found e, isDigits⟩, rfl, ?_⟩, ?_⟩
        · rw [negative, Spelling.power]
        · rw [signed, unsigned]
          simp
    · cases h
      exact ⟨[], .inl ⟨rfl, rfl⟩, rfl⟩

/-- A numeral is read behind its sign. -/
theorem numeralParts?_signed {negative : Bool} {unsigned : List Char}
    (minus : ∀ cs, unsigned = '-' :: cs → negative = true) :
    numeralParts? (Binary64.signed negative unsigned) =
      match wholePart unsigned with
      | ([], _) => none
      | (whole, rest) =>
        let (fraction, rest) := fractionPart rest
        let (exponent, rest) := exponentPart rest
        some (⟨negative, whole, fraction, exponent⟩, rest) := by
  cases negative with
  | true => rfl
  | false =>
    cases unsigned with
    | nil => rfl
    | cons c cs =>
      have first : c ≠ '-' := by
        rintro rfl
        cases minus cs rfl
      have unsigned : ∀ rest, c :: cs = '-' :: rest → False :=
        fun rest e => first (List.cons.inj e).1
      cases found : wholePart (c :: cs) with
      | mk whole rest =>
        cases whole <;>
          simp only [numeralParts?, Binary64.signed, Bool.false_eq_true, if_false, found]

theorem exists_signed (text : List Char) : ∃ negative unsigned,
    text = Binary64.signed negative unsigned ∧ ∀ cs, unsigned = '-' :: cs → negative = true := by
  by_cases minus : ∃ cs, text = '-' :: cs
  · obtain ⟨cs, rfl⟩ := minus
    exact ⟨true, cs, rfl, fun _ _ => rfl⟩
  · exact ⟨false, text, rfl, fun cs e => absurd ⟨cs, e⟩ minus⟩

/-- What the reader takes for a numeral is one. -/
theorem numeralParts?_eq_some {text rest : List Char} {parts : NumeralParts}
    (h : numeralParts? text = some (parts, rest)) :
    ∃ used, parts.Spells used ∧ text = used ++ rest := by
  obtain ⟨negative, unsigned, rfl, minus⟩ := exists_signed text
  rw [numeralParts?_signed minus] at h
  split at h
  · cases h
  · next whole after found part =>
    cases fractions : fractionPart after with
    | mk fraction others =>
      cases exponents : exponentPart others with
      | mk power last =>
        simp only [fractions, exponents, Option.some.injEq, Prod.mk.injEq] at h
        obtain ⟨rfl, rfl⟩ := h
        obtain ⟨isWhole, rfl⟩ := wholePart_eq part fun e => found e
        obtain ⟨isFraction, rfl⟩ := fractionPart_eq fractions
        obtain ⟨exponent, isExponent, rfl⟩ := exponentPart_eq exponents
        refine ⟨_, ⟨isWhole, isFraction, exponent, isExponent, rfl⟩, ?_⟩
        rw [Binary64.signed_append, List.append_assoc, List.append_assoc]

theorem SpellsExponent.ends {exponent : List Char} {power : Option ℤ}
    (spells : SpellsExponent exponent power) {rest : List Char} (hr : EndsNumeral rest) :
    EndsDigits (exponent ++ rest) ∧ ∀ cs, exponent ++ rest ≠ '.' :: cs := by
  rcases spells with ⟨rfl, -⟩ | ⟨letter, known, sign, -, digits, -, rfl, -⟩
  · exact ⟨hr.digits, fun cs e => (hr _ cs e).2.1 rfl⟩
  · simp only [List.mem_cons, List.not_mem_nil, or_false] at known
    rcases known with rfl | rfl <;> exact ⟨.cons _ rfl, fun cs e => by simp at e⟩

theorem exponentPart_spells {exponent : List Char} {power : Option ℤ}
    (spells : SpellsExponent exponent power) {rest : List Char} (hr : EndsNumeral rest) :
    exponentPart (exponent ++ rest) = (power, rest) := by
  rcases spells with ⟨rfl, rfl⟩ | ⟨letter, known, sign, signs, digits, ⟨first, digit⟩, rfl, rfl⟩
  · exact @Spelling.exponentPart_append none rest (by simp) hr
  · have letters : (letter == 'e' || letter == 'E') = true := by simpa using known
    have span := span_digits digit hr.digits
    obtain ⟨d, ds, rfl⟩ := List.exists_cons_of_ne_nil first
    have unsigned : exponentSign (d :: (ds ++ rest)) = (false, d :: (ds ++ rest)) := by
      unfold exponentSign
      split
      · next e => cases e; exact absurd (digit '-' List.mem_cons_self) (by decide)
      · next e => cases e; exact absurd (digit '+' List.mem_cons_self) (by decide)
      · rfl
    rw [List.cons_append] at span
    simp only [List.mem_cons, List.not_mem_nil, or_false] at signs
    rcases signs with rfl | rfl | rfl
    · simp only [List.cons_append, List.nil_append, exponentPart, letters, if_true]
      rw [unsigned]
      simp only [span, Spelling.power]
    all_goals simp only [List.cons_append, List.nil_append, exponentPart, letters, if_true,
      exponentSign, span, Spelling.power]

/-- A numeral is read where the text after it does not continue it. -/
theorem numeralParts?_spells {parts : NumeralParts} {text : List Char} (spells : parts.Spells text)
    {rest : List Char} (hr : EndsNumeral rest) :
    numeralParts? (text ++ rest) = some (parts, rest) := by
  obtain ⟨negative, whole, fraction, power⟩ := parts
  obtain ⟨isWhole, isFraction, exponent, isExponent, rfl⟩ := spells
  obtain ⟨ends, point⟩ := isExponent.ends hr
  have wholeRead := Spelling.wholePart_append isWhole (Spelling.endsDigits_pointed fraction ends)
  have fractionRead := Spelling.fractionPart_append isFraction ends point
  have exponentRead := exponentPart_spells isExponent hr
  obtain ⟨c, cs, rfl, digit⟩ := isWhole.exists_cons
  rw [Binary64.signed_append, List.append_assoc, List.append_assoc, numeralParts?_signed,
    wholeRead]
  · simp only [fractionRead, exponentRead]
  · intro cs e
    cases e
    exact absurd digit (by decide)

/-! ## Code units -/

/-- Four hexadecimal digits. -/
structure IsUnit (digits : List Char) : Prop where
  four : digits.length = 4
  hexadecimal : ∀ d ∈ digits, (hexValue? d).isSome = true

/-- The code unit that hexadecimal digits spell. -/
def unitOf (digits : List Char) : Nat :=
  digits.foldl (fun unit d => unit * 16 + (hexValue? d).getD 0) 0

theorem hexQuad?_eq_some {text rest : List Char} {unit : Nat} :
    hexQuad? text = some (unit, rest) ↔
      ∃ digits, IsUnit digits ∧ unitOf digits = unit ∧ rest ≠ [] ∧ text = digits ++ rest := by
  constructor
  · intro h
    unfold hexQuad? at h
    split at h
    · next a b c d next after =>
      obtain ⟨w, first, x, second, y, third, z, fourth, rfl, rfl⟩ :
          ∃ w, hexValue? a = some w ∧ ∃ x, hexValue? b = some x ∧ ∃ y, hexValue? c = some y ∧
            ∃ z, hexValue? d = some z ∧ ((w * 16 + x) * 16 + y) * 16 + z = unit ∧
              next :: after = rest := by
        simpa [Option.bind_eq_some_iff] using h
      refine ⟨[a, b, c, d], ⟨rfl, by simp [first, second, third, fourth]⟩, ?_, by simp, rfl⟩
      simp [unitOf, first, second, third, fourth]
    · cases h
  · rintro ⟨digits, ⟨four, hexadecimal⟩, rfl, more, rfl⟩
    obtain ⟨a, b, c, d, rfl⟩ := List.length_eq_four.mp four
    obtain ⟨next, after, rfl⟩ := List.exists_cons_of_ne_nil more
    simp only [List.forall_mem_cons, Option.isSome_iff_exists] at hexadecimal
    obtain ⟨⟨w, first⟩, ⟨x, second⟩, ⟨y, third⟩, ⟨z, fourth⟩, -⟩ := hexadecimal
    simp [hexQuad?, unitOf, first, second, third, fourth]

/-! ## String literals -/

/-- A code unit that the escape after it does not complete. -/
def IsAlone (unit : Nat) (following : List Char) : Prop :=
  isHighSurrogate unit = true → ∀ low after, IsUnit low →
    following = '\\' :: 'u' :: (low ++ after) → isLowSurrogate (unitOf low) = false

/-- The text of a code point in a string literal, before the text that follows it. -/
inductive SpellsChar : List Char → CodePoint → List Char → Prop where
  | plain (c : Char) (following : List Char) (quote : c ≠ '"') (backslash : c ≠ '\\')
      (control : 0x20 ≤ c.toNat) : SpellsChar [c] (.char c) following
  | letter (letter c : Char) (following : List Char) (escape : letterEscape? letter = some c) :
      SpellsChar ['\\', letter] (.char c) following
  | unit (digits following : List Char) (isUnit : IsUnit digits)
      (alone : IsAlone (unitOf digits) following) :
      SpellsChar ('\\' :: 'u' :: digits) (.ofUnit (unitOf digits)) following
  | pair (high low following : List Char) (first : IsUnit high) (second : IsUnit low)
      (isHigh : isHighSurrogate (unitOf high) = true) (isLow : isLowSurrogate (unitOf low) = true) :
      SpellsChar ('\\' :: 'u' :: (high ++ '\\' :: 'u' :: low))
        (.char (.ofNat (0x10000 + (unitOf high - 0xD800) * 0x400 + (unitOf low - 0xDC00))))
        following

/-- The text between the quotes of a string literal, and its code points. -/
inductive Quotes : List Char → List CodePoint → Prop where
  | nil : Quotes [] []
  | cons {used text : List Char} {point : CodePoint} {points : List CodePoint}
      (char : SpellsChar used point text) (rest : Quotes text points) :
      Quotes (used ++ text) (point :: points)

/-- A text that goes on, with a whole code unit where it has an escape of one. -/
structure Continues (following : List Char) : Prop where
  more : following ≠ []
  unit : ∀ second, following = '\\' :: 'u' :: second → (hexQuad? second).isSome = true

theorem Continues.long {second : List Char} (continues : Continues ('\\' :: 'u' :: second)) :
    5 ≤ second.length := by
  obtain ⟨⟨unit, rest⟩, found⟩ := Option.isSome_iff_exists.mp (continues.unit second rfl)
  obtain ⟨digits, isUnit, -, more, rfl⟩ := hexQuad?_eq_some.mp found
  have := List.length_pos_iff.mpr more
  rw [List.length_append, isUnit.four]
  omega

theorem readUnicode_eq_ok {mark digits following : List Char} {point : CodePoint}
    (h : readUnicode mark digits = .ok (point, following)) (continues : Continues following) :
    ∃ used, SpellsChar ('\\' :: 'u' :: used) point following ∧ digits = used ++ following := by
  unfold readUnicode at h
  split at h
  · cases h
  next unit rest found =>
  obtain ⟨high, isUnit, rfl, -, rfl⟩ := hexQuad?_eq_some.mp found
  split at h
  · next plain =>
    cases h
    exact ⟨high, .unit high following isUnit fun isHigh => by simp [isHigh] at plain, rfl⟩
  next isHigh =>
  split at h
  · next second =>
    split at h
    · next short =>
      cases h
      exact absurd continues.long (by omega)
    split at h
    · cases h
    next unit after complement =>
    obtain ⟨low, isLowUnit, rfl, -, rfl⟩ := hexQuad?_eq_some.mp complement
    split at h
    · next isLow =>
      simp only [Except.ok.injEq, Prod.mk.injEq] at h
      obtain ⟨rfl, rfl⟩ := h
      exact ⟨high ++ '\\' :: 'u' :: low,
        .pair high low _ isUnit isLowUnit (by simpa using isHigh) isLow, by simp⟩
    · next notLow =>
      cases h
      refine ⟨high, .unit high _ isUnit fun _ other rest isOther e => ?_, rfl⟩
      have same : low = other := by
        simp only [List.cons.injEq, true_and] at e
        exact (List.append_inj e (isLowUnit.four.trans isOther.four.symm)).1
      rw [← same]
      simpa using notLow
  · next none =>
    cases h
    exact ⟨high, .unit high following isUnit fun _ low after _ e => absurd e (none _), rfl⟩

theorem readUnicode_spells {mark used following : List Char} {point : CodePoint}
    (spells : SpellsChar ('\\' :: 'u' :: used) point following)
    (continues : Continues following) :
    readUnicode mark (used ++ following) = .ok (point, following) := by
  cases spells with
  | letter _ _ _ escape => cases escape
  | unit digits _ isUnit alone =>
    have found : hexQuad? (used ++ following) = some (unitOf used, following) :=
      hexQuad?_eq_some.mpr ⟨used, isUnit, rfl, continues.more, rfl⟩
    unfold readUnicode
    simp only [found]
    split
    · rfl
    next isHigh =>
    split
    · next second =>
      have long := continues.long
      obtain ⟨⟨unit, after⟩, complement⟩ := Option.isSome_iff_exists.mp (continues.unit second rfl)
      obtain ⟨low, isLowUnit, rfl, -, rfl⟩ := hexQuad?_eq_some.mp complement
      have notLow := alone (by simpa using isHigh) low after isLowUnit rfl
      rw [if_neg (by omega), complement]
      simp [notLow]
    · rfl
  | pair high low _ first second isHigh isLow =>
    have lowFound : hexQuad? (low ++ following) = some (unitOf low, following) :=
      hexQuad?_eq_some.mpr ⟨low, second, rfl, continues.more, rfl⟩
    have found : hexQuad? (high ++ '\\' :: 'u' :: low ++ following) =
        some (unitOf high, '\\' :: 'u' :: (low ++ following)) :=
      hexQuad?_eq_some.mpr ⟨high, first, rfl, by simp, by simp⟩
    have long : ¬ (low ++ following).length < 5 := by
      have := List.length_pos_iff.mpr continues.more
      rw [List.length_append, second.four]
      omega
    simp only [readUnicode, found, isHigh, Bool.not_true, Bool.false_eq_true, if_false, long,
      lowFound, isLow, if_true]

theorem readChar_plain (start : List Char) {c : Char} (backslash : c ≠ '\\') (control : ¬ c < ' ')
    (rest : List Char) : readChar start (c :: rest) = .ok (.char c, rest) := by
  rw [readChar]
  · simp [control]
  · exact fun e => absurd e backslash
  · exact fun _ e => absurd e backslash
  · exact fun _ _ e => absurd e backslash

theorem readChar_eq_ok {start text following : List Char} {point : CodePoint}
    (h : readChar start text = .ok (point, following)) (quote : text.head? ≠ some '"')
    (continues : Continues following) :
    ∃ used, SpellsChar used point following ∧ text = used ++ following := by
  unfold readChar at h
  split at h
  · cases h
  · cases h
  · next digits =>
    obtain ⟨used, spells, rfl⟩ := readUnicode_eq_ok h continues
    exact ⟨'\\' :: 'u' :: used, spells, rfl⟩
  · next letter rest _ =>
    split at h
    · next c escape =>
      cases h
      exact ⟨['\\', letter], .letter letter c following escape, rfl⟩
    · cases h
  · next c rest _ _ escape =>
    split at h
    · cases h
    · next control =>
      cases h
      have backslash : c ≠ '\\' := by
        rintro rfl
        cases following with
        | nil => exact continues.more rfl
        | cons letter after => exact escape letter after rfl rfl
      exact ⟨[c], .plain c following (by simpa using quote) backslash (Nat.le_of_not_lt control),
        rfl⟩

theorem readChar_spells {start used following : List Char} {point : CodePoint}
    (spells : SpellsChar used point following) (continues : Continues following) :
    readChar start (used ++ following) = .ok (point, following) := by
  cases spells with
  | plain _ _ _ backslash control => exact readChar_plain start backslash (Nat.not_lt.mpr control) _
  | letter letter _ _ escape =>
    have unit : letter ≠ 'u' := by
      rintro rfl
      cases escape
    rw [List.cons_append, List.cons_append, List.nil_append, readChar]
    · rw [escape]
    · exact fun e => unit e
  | unit digits _ isUnit alone =>
    exact readUnicode_spells (.unit digits following isUnit alone) continues
  | pair high low _ first second isHigh isLow =>
    exact readUnicode_spells (.pair high low following first second isHigh isLow) continues

theorem continues_of_readChars {start text rest : List Char} {points : List CodePoint}
    {fuel : Nat} (h : readChars start fuel text = .ok (points, rest)) : Continues text := by
  refine ⟨?_, ?_⟩
  · rintro rfl
    cases fuel <;> cases h
  · rintro second rfl
    cases fuel with
    | zero => cases h
    | succ fuel =>
      cases found : hexQuad? second with
      | none => simp [readChars, readChar, readUnicode, found, fault, bind, Except.bind] at h
      | some _ => rfl

theorem isAlone_append {unit : Nat} {text rest : List Char} :
    IsAlone unit (text ++ '"' :: rest) ↔ IsAlone unit text := by
  refine imp_congr_right fun _ => ⟨fun alone low after isUnit e => ?_,
    fun alone low after isUnit e => ?_⟩
  · exact alone low (after ++ '"' :: rest) isUnit (by simp [e])
  · -- the escape has no quote, so it ends before the one that closes the literal
    rw [show '\\' :: 'u' :: (low ++ after) = ('\\' :: 'u' :: low) ++ after from rfl] at e
    rcases List.append_eq_append_iff.mp e with ⟨spill, escape, closing⟩ | ⟨between, within, -⟩
    · cases spill with
      | nil => exact alone low [] isUnit (by simpa using escape.symm)
      | cons quote spill =>
        obtain ⟨rfl, -⟩ := List.cons.inj closing
        have mem : '"' ∈ low := by
          have mem : '"' ∈ '\\' :: 'u' :: low := by
            rw [escape]
            simp
          simpa using mem
        exact absurd rfl (hexadecimal_plain (isUnit.hexadecimal _ mem)).1
    · exact alone low between isUnit (by simpa using within)

theorem SpellsChar.congr {used text following : List Char} {point : CodePoint}
    (spells : SpellsChar used point text)
    (same : ∀ unit, IsAlone unit text → IsAlone unit following) :
    SpellsChar used point following := by
  cases spells with
  | plain c _ quote backslash control => exact .plain c following quote backslash control
  | letter letter c _ escape => exact .letter letter c following escape
  | unit digits _ isUnit alone => exact .unit digits following isUnit (same _ alone)
  | pair high low _ first second isHigh isLow =>
    exact .pair high low following first second isHigh isLow

theorem readChars_succ (start : List Char) (fuel : Nat) {text : List Char}
    (quote : text.head? ≠ some '"') : readChars start (fuel + 1) text = do
      let (point, rest) ← readChar start text
      let (points, rest) ← readChars start fuel rest
      return (point :: points, rest) := by
  rw [readChars]
  rintro rest rfl
  exact quote rfl

/-- What the reader takes for the inside of a literal is one. -/
theorem readChars_eq_ok {start text rest : List Char} {points : List CodePoint} {fuel : Nat}
    (h : readChars start fuel text = .ok (points, rest)) :
    ∃ used, Quotes used points ∧ text = used ++ '"' :: rest := by
  induction fuel generalizing text points with
  | zero => cases h
  | succ fuel ih =>
    by_cases quote : text.head? = some '"'
    · obtain ⟨after, rfl⟩ := List.head?_eq_some_iff.mp quote
      cases h
      exact ⟨[], .nil, rfl⟩
    · rw [readChars_succ start fuel quote] at h
      obtain ⟨⟨point, following⟩, char, h⟩ := bind_eq_ok h
      obtain ⟨⟨others, last⟩, chars, h⟩ := bind_eq_ok h
      cases h
      obtain ⟨used, spells, rfl⟩ := readChar_eq_ok char quote (continues_of_readChars chars)
      obtain ⟨inner, quotes, rfl⟩ := ih chars
      exact ⟨used ++ inner, .cons (spells.congr fun _ => isAlone_append.mp) quotes, by simp⟩

theorem SpellsChar.opens {used following : List Char} {point : CodePoint}
    (spells : SpellsChar used point following) : ∃ d ds, used = d :: ds ∧ d ≠ '"' := by
  cases spells with
  | plain c _ quote _ _ => exact ⟨c, [], rfl, quote⟩
  | letter | unit | pair => exact ⟨'\\', _, rfl, by decide⟩

theorem Quotes.continues {text : List Char} {points : List CodePoint}
    (quotes : Quotes text points) (rest : List Char) :
    Continues (text ++ '"' :: rest) := by
  refine ⟨by simp, fun second e => ?_⟩
  have unit {digits after : List Char} (isUnit : IsUnit digits)
      (e : second = digits ++ after) (more : after ≠ []) : (hexQuad? second).isSome = true := by
    rw [hexQuad?_eq_some.mpr ⟨digits, isUnit, rfl, more, e⟩]
    rfl
  cases quotes with
  | nil => cases e
  | cons spells quotes =>
    cases spells with
    | plain _ _ _ backslash _ => exact absurd (List.cons.inj e).1 backslash
    | letter letter _ _ escape =>
      cases e
      cases escape
    | unit digits _ isUnit _ =>
      simp only [List.cons_append, List.append_assoc, List.cons.injEq, true_and] at e
      exact unit isUnit e.symm (by simp)
    | pair high low _ first _ _ _ =>
      simp only [List.cons_append, List.append_assoc, List.cons.injEq, true_and] at e
      exact unit first e.symm (by simp)

/-- The inside of a literal is read up to the quote that closes it. -/
theorem readChars_quotes (start : List Char) {text : List Char} {points : List CodePoint}
    (quotes : Quotes text points) (rest : List Char) {fuel : Nat} (hf : text.length < fuel) :
    readChars start fuel (text ++ '"' :: rest) = .ok (points, rest) := by
  induction quotes generalizing fuel with
  | nil =>
    obtain ⟨fuel, rfl⟩ := Nat.exists_eq_add_one_of_ne_zero (Nat.ne_of_gt hf)
    rfl
  | @cons used text point points spells quotes ih =>
    obtain ⟨fuel, rfl⟩ := Nat.exists_eq_add_one_of_ne_zero (Nat.ne_of_gt (Nat.zero_lt_of_lt hf))
    obtain ⟨d, ds, opens, quote⟩ := spells.opens
    have char : readChar start (used ++ (text ++ '"' :: rest)) =
        .ok (point, text ++ '"' :: rest) :=
      readChar_spells (spells.congr fun _ => isAlone_append.mpr) (quotes.continues rest)
    have shorter : text.length < fuel := by
      rw [opens, List.length_append, List.length_cons] at hf
      omega
    rw [List.append_assoc, readChars_succ start fuel (by simpa [opens] using quote), char]
    simp only [bind, Except.bind, ih shorter]
    rfl

theorem readString_eq_ok {text rest : List Char} {value : Text}
    (h : readString text = .ok (value, rest)) :
    ∃ used, Quotes used value.points ∧ text = used ++ '"' :: rest := by
  obtain ⟨⟨points, others⟩, chars, h⟩ := bind_eq_ok h
  cases h
  exact readChars_eq_ok chars

theorem readString_quotes {text : List Char} {value : Text} (quotes : Quotes text value.points)
    (rest : List Char) : readString (text ++ '"' :: rest) = .ok (value, rest) := by
  have fuel : text.length < (text ++ '"' :: rest).length + 1 := by
    rw [List.length_append]
    omega
  rw [readString, readChars_quotes _ quotes rest fuel]
  rfl

end Json
end DesignSystem
