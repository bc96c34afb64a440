import DesignSystem.Proofs.Json.Lexical
import DesignSystem.Proofs.Text.Joined

/-! # String literals are read back

A literal spells its text, point by point. In ASCII two surrogates that make a character spell the
character, and where all characters are written a surrogate on its own spells nothing.

* `Json.spellsChar_escaped`, `Json.spellsChar_escape`: a character, and a surrogate on its own.
* `Json.quotes_escapedChars`: the points of a text.
* `Json.readString_literal`: a literal is read as its text.
* `Json.readString_isJoined`: the surrogates of a text that is read make no characters.
-/

namespace DesignSystem.Json
set_option autoImplicit false

/-! ## Code units -/

theorem isUnit_hexDigits (n : Nat) : IsUnit (hexDigits 4 n) where
  four := by simp [hexDigits_four]
  hexadecimal d mem := by
    obtain ⟨place, -, rfl⟩ := List.mem_map.mp mem
    rw [hexValue?_digitChar (Nat.mod_lt _ (by decide))]
    rfl

theorem unitOf_hexDigits {n : Nat} (h : n < 0x10000) : unitOf (hexDigits 4 n) = n := by
  have digit : ∀ m, hexValue? (m % 16).digitChar = some (m % 16) :=
    fun m => hexValue?_digitChar (Nat.mod_lt _ (by decide))
  have value : ((n / 4096 % 16 * 16 + n / 256 % 16) * 16 + n / 16 % 16) * 16 + n % 16 = n := by
    omega
  simp [hexDigits_four, unitOf, digit, value]

theorem toNat_lt (c : Char) : c.toNat < 0x110000 := by
  have h := c.valid
  simp only [UInt32.isValidChar, Nat.isValidChar] at h
  have e : c.val.toNat = c.toNat := rfl
  omega

theorem not_surrogate (c : Char) :
    isHighSurrogate c.toNat = false ∧ isLowSurrogate c.toNat = false := by
  have h := c.valid
  simp only [UInt32.isValidChar, Nat.isValidChar] at h
  have e : c.val.toNat = c.toNat := rfl
  simp only [isHighSurrogate, isLowSurrogate, Bool.and_eq_false_iff, decide_eq_false_iff_not]
  omega

theorem ofUnit_toNat (c : Char) : CodePoint.ofUnit c.toNat = .char c := by
  rw [CodePoint.ofUnit_of_not_half (by simp [not_surrogate]), Char.ofNat_toNat]

theorem half_lt (half : Surrogate) : half.unit < 0x10000 := by
  have h := half.isHalf
  simp only [isHighSurrogate, isLowSurrogate, Bool.or_eq_true, Bool.and_eq_true,
    decide_eq_true_eq] at h
  omega

/-! ## Code points -/

/-- The escapes of two units that make a pair spell the character of the pair. -/
theorem spellsChar_units {high low : Nat} (isHigh : isHighSurrogate high = true)
    (isLow : isLowSurrogate low = true) (following : List Char) :
    SpellsChar ('\\' :: 'u' :: (hexDigits 4 high ++ '\\' :: 'u' :: hexDigits 4 low))
      (.char (.ofNat (0x10000 + (high - 0xD800) * 0x400 + (low - 0xDC00)))) following := by
  have highUnit := unitOf_hexDigits (half_lt ⟨high, by simp [isHigh]⟩)
  have lowUnit := unitOf_hexDigits (half_lt ⟨low, by simp [isLow]⟩)
  have spells := SpellsChar.pair _ _ following (isUnit_hexDigits high) (isUnit_hexDigits low)
    (highUnit.symm ▸ isHigh) (lowUnit.symm ▸ isLow)
  rwa [highUnit, lowUnit] at spells

/-- The escapes of a character spell it, whatever follows them. -/
theorem spellsChar_unicodeEscape (c : Char) (following : List Char) :
    SpellsChar (unicodeEscape c) (.char c) following := by
  dsimp only [unicodeEscape]
  split
  · next unit =>
    have spelled := unitOf_hexDigits unit
    have alone : IsAlone (unitOf (hexDigits 4 c.toNat)) following := fun isHigh => by
      rw [spelled, (not_surrogate c).1] at isHigh
      cases isHigh
    have spells := SpellsChar.unit _ following (isUnit_hexDigits c.toNat) alone
    rwa [spelled, ofUnit_toNat] at spells
  · next beyond =>
    have bound := toNat_lt c
    have isHigh : isHighSurrogate (0xD800 + (c.toNat - 0x10000) / 0x400) = true := by
      simp only [isHighSurrogate, Bool.and_eq_true, decide_eq_true_eq]
      omega
    have isLow : isLowSurrogate (0xDC00 + (c.toNat - 0x10000) % 0x400) = true := by
      simp only [isLowSurrogate, Bool.and_eq_true, decide_eq_true_eq]
      omega
    have spells := spellsChar_units isHigh isLow following
    rwa [show 0x10000 + (0xD800 + (c.toNat - 0x10000) / 0x400 - 0xD800) * 0x400 +
        (0xDC00 + (c.toNat - 0x10000) % 0x400 - 0xDC00) = c.toNat by omega,
      Char.ofNat_toNat] at spells

theorem spellsChar_escaped (ascii : Bool) (c : Char) (following : List Char) :
    SpellsChar (escaped ascii c) (.char c) following := by
  simp only [escaped, Bool.or_eq_true, beq_iff_eq, decide_eq_true_eq]
  split
  · next quoted => rcases quoted with rfl | rfl <;> exact .letter _ _ following rfl
  split
  · next h => subst h; exact .letter _ _ following rfl
  split
  · next h => subst h; exact .letter _ _ following rfl
  split
  · next h => subst h; exact .letter _ _ following rfl
  split
  · next h => subst h; exact .letter _ _ following rfl
  split
  · next h => subst h; exact .letter _ _ following rfl
  split
  · exact spellsChar_unicodeEscape c following
  · next quoted _ _ _ _ _ plain =>
    rw [not_or] at quoted plain
    exact .plain c following quoted.1 quoted.2 (Nat.le_of_not_lt plain.1)

/-- The escape of a surrogate spells it, unless the escape after it completes it. -/
theorem spellsChar_escape (half : Surrogate) {following : List Char}
    (alone : IsAlone half.unit following) :
    SpellsChar half.escape (.surrogate half) following := by
  have spelled := unitOf_hexDigits (half_lt half)
  have spells := SpellsChar.unit _ following (isUnit_hexDigits half.unit) (spelled.symm ▸ alone)
  rwa [spelled, CodePoint.ofUnit_of_half half.isHalf] at spells

/-- The escape of a code unit at the beginning of a text is its only one there. -/
theorem unitOf_of_escape {n : Nat} (h : n < 0x10000) {low rest after : List Char}
    (isUnit : IsUnit low)
    (e : '\\' :: 'u' :: (hexDigits 4 n ++ rest) = '\\' :: 'u' :: (low ++ after)) :
    unitOf low = n := by
  simp only [List.cons.injEq, true_and] at e
  have same := (List.append_inj e ((isUnit_hexDigits n).four.trans isUnit.four.symm)).1
  rw [← same, unitOf_hexDigits h]

theorem not_low_of_escaped {ascii : Bool} {c : Char} {low rest after : List Char}
    (isUnit : IsUnit low)
    (e : escaped ascii c ++ rest = '\\' :: 'u' :: (low ++ after)) :
    isLowSurrogate (unitOf low) = false := by
  simp only [escaped, unicodeEscape, Bool.or_eq_true, beq_iff_eq, decide_eq_true_eq] at e
  split at e
  · next quoted => rcases quoted with rfl | rfl <;> simp at e
  split at e
  · simp at e
  split at e
  · simp at e
  split at e
  · simp at e
  split at e
  · simp at e
  split at e
  · simp at e
  split at e
  · split at e
    · next unit =>
      rw [unitOf_of_escape unit isUnit e]
      exact (not_surrogate c).2
    · have bound := toNat_lt c
      rw [List.append_assoc, List.cons_append, List.cons_append] at e
      rw [unitOf_of_escape (by omega) isUnit e]
      simp only [isLowSurrogate, Bool.and_eq_false_iff, decide_eq_false_iff_not]
      omega
  · next quoted _ _ _ _ _ _ => exact absurd (.inr (List.cons.inj e).1) quoted

/-- What does not make a character with the next point is alone before it. -/
theorem isAlone_escapedChars {half : Surrogate} {next : CodePoint}
    (single : CodePoint.pair? (.surrogate half) next = none) (rest : List Char) :
    IsAlone half.unit (escapedChars true next ++ rest) := by
  intro isHigh low after isUnit e
  cases next with
  | char c =>
    rw [escapedChars_char] at e
    exact not_low_of_escaped isUnit e
  | surrogate other =>
    rw [escapedChars_surrogate, if_pos rfl] at e
    rw [unitOf_of_escape (half_lt other) isUnit e]
    simpa [CodePoint.pair?, isHigh] using single

/-- A point is spelled by its escape before what leaves it alone. Where not all points are escaped,
it has to be a character. -/
theorem spellsChar_point {ascii : Bool} {point : CodePoint} {after : List Char}
    (spelled : ascii = true ∨ point.isChar = true)
    (alone : ∀ half, point = .surrogate half → IsAlone half.unit after) :
    SpellsChar (escapedChars ascii point) point after := by
  cases point with
  | char c =>
    rw [escapedChars_char]
    exact spellsChar_escaped ascii c after
  | surrogate half =>
    obtain rfl : ascii = true := by simpa using spelled
    rw [escapedChars_surrogate, if_pos rfl]
    exact spellsChar_escape half (alone half rfl)

/-- Two points that make a character are spelled as that character by their escapes. -/
theorem spellsChar_pair {first second : CodePoint} {c : Char}
    (pair : CodePoint.pair? first second = some c) (after : List Char) :
    SpellsChar (escapedChars true first ++ escapedChars true second) (.char c) after := by
  cases first with
  | char d => cases pair
  | surrogate high =>
    cases second with
    | char d => cases pair
    | surrogate low =>
      obtain ⟨⟨isHigh, isLow⟩, rfl⟩ :
          (isHighSurrogate high.unit = true ∧ isLowSurrogate low.unit = true) ∧ _ = c := by
        simpa [CodePoint.pair?] using pair
      simpa [escapedChars_surrogate, Surrogate.escape] using spellsChar_units isHigh isLow after

/-! ## Literals -/

/-- The points of a text are spelled by their escapes; where not all of them are escaped, they have
to be characters. -/
theorem quotes_escapedChars {ascii : Bool} {points : List CodePoint}
    (spelled : ascii = true ∨ ∀ point ∈ points, point.isChar = true) :
    Quotes (points.flatMap (escapedChars ascii)) (CodePoint.joined points) := by
  fun_induction CodePoint.joined points with
  | case1 => exact .nil
  | case2 point =>
    have single : SpellsChar (escapedChars ascii point) point [] :=
      spellsChar_point (spelled.imp_right fun each => each point List.mem_cons_self)
        fun _ _ _ _ _ _ e => by cases e
    simpa using Quotes.cons single .nil
  | case3 first second rest c pair ih =>
    have escaped : ascii = true := by
      refine spelled.resolve_right fun each => ?_
      cases first with
      | char d => cases pair
      | surrogate half => cases each _ List.mem_cons_self
    subst escaped
    have quotes := Quotes.cons (spellsChar_pair pair _) (ih (.inl rfl))
    simpa using quotes
  | case4 first second rest single ih =>
    refine .cons ?_ (ih (spelled.imp_right fun each => (List.forall_mem_cons.mp each).2))
    refine spellsChar_point (spelled.imp_right fun each => each first List.mem_cons_self) ?_
    rintro half rfl
    obtain rfl : ascii = true := by simpa using spelled
    exact isAlone_escapedChars single _

/-- A text that a literal can spell. -/
def Spellable (ascii : Bool) (text : Text) : Prop := ascii = true ∨ text.isUnicode = true

theorem Spellable.quotes {ascii : Bool} {text : Text} (spellable : Spellable ascii text) :
    Quotes (text.points.flatMap (escapedChars ascii)) text.joined.points :=
  quotes_escapedChars (spellable.imp_right List.all_eq_true.mp)

/-- A literal is read as the text it is the literal of. -/
theorem readString_literal {ascii : Bool} {text : Text} (spellable : Spellable ascii text)
    (rest : List Char) :
    readString (text.points.flatMap (escapedChars ascii) ++ '"' :: rest) =
      .ok (text.joined, rest) :=
  readString_quotes spellable.quotes rest

/-! ## What is read is joined -/

/-- A surrogate on its own is spelled by an escape that the next one does not complete. -/
theorem SpellsChar.unit_of_surrogate {used following : List Char} {point : CodePoint}
    {half : Surrogate} (spells : SpellsChar used point following) (same : point = .surrogate half) :
    ∃ digits, IsUnit digits ∧ unitOf digits = half.unit ∧ used = '\\' :: 'u' :: digits ∧
      IsAlone half.unit following := by
  cases spells with
  | plain | letter | pair => cases same
  | unit digits _ isUnit alone =>
    unfold CodePoint.ofUnit at same
    split at same
    · cases same
      exact ⟨digits, isUnit, rfl, rfl, alone⟩
    · cases same

/-- The points that a literal spells make no further characters. -/
theorem Quotes.unpaired {text : List Char} {points : List CodePoint} (quotes : Quotes text points) :
    CodePoint.Unpaired points := by
  induction quotes with
  | nil => exact .nil
  | @cons used text point points spells quotes ih =>
    refine List.isChain_cons.mpr ⟨fun next first => ?_, ih⟩
    cases point with
    | char c => exact CodePoint.pair?_char_left c next
    | surrogate half =>
      cases next with
      | char c => exact CodePoint.pair?_char_right _ c
      | surrogate other =>
        obtain ⟨-, -, -, -, alone⟩ := spells.unit_of_surrogate rfl
        cases quotes with
        | nil => cases first
        | @cons _ rest _ _ spellsNext _ =>
          obtain ⟨low, isUnit, unit, rfl, -⟩ := spellsNext.unit_of_surrogate (by simpa using first)
          simp only [CodePoint.pair?, ite_eq_right_iff, reduceCtorEq, imp_false, Bool.and_eq_true,
            not_and, Bool.not_eq_true]
          intro isHigh
          rw [← unit]
          exact alone isHigh low rest isUnit rfl

theorem readString_isJoined {text rest : List Char} {value : Text}
    (h : readString text = .ok (value, rest)) : value.IsJoined := by
  obtain ⟨used, quotes, -⟩ := readString_eq_ok h
  exact quotes.unpaired

end DesignSystem.Json
