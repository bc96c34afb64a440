import DesignSystem.Text.Basic

/-! # Unicode texts

A text without surrogates on their own is a string, and is handled as that string.

* `Text.string?_eq_some_iff`: the string that a text is.
* `CodePoint.ofUnit_of_half`, `CodePoint.ofUnit_of_not_half`: the code points of code units.
-/

namespace DesignSystem
set_option autoImplicit false

/-! ## Code points -/

namespace CodePoint

@[simp] theorem shown_char (c : Char) : (char c).shown = c := rfl

@[simp] theorem shown_comp_char : shown ∘ char = id := rfl

@[simp] theorem isChar_char (c : Char) : (char c).isChar = true := rfl

@[simp] theorem isChar_surrogate (half : Surrogate) : (surrogate half).isChar = false := rfl

theorem char_injective : Function.Injective char := fun _ _ h => by cases h; rfl

@[simp] theorem map_shown_char (text : List Char) :
    (text.map char).map shown = text := by
  induction text with
  | nil => rfl
  | cons c cs ih => rw [List.map_cons, List.map_cons, ih, shown_char]

theorem map_char_shown {points : List CodePoint} (each : ∀ point ∈ points, point.isChar = true) :
    (points.map shown).map char = points := by
  induction points with
  | nil => rfl
  | cons point points ih =>
    rw [List.forall_mem_cons] at each
    cases point with
    | char c => rw [List.map_cons, List.map_cons, ih each.2, shown_char]
    | surrogate half => cases each.1

theorem ofUnit_of_half {unit : Nat}
    (isHalf : (isHighSurrogate unit || isLowSurrogate unit) = true) :
    ofUnit unit = surrogate ⟨unit, isHalf⟩ := dif_pos isHalf

theorem ofUnit_of_not_half {unit : Nat}
    (whole : ¬ (isHighSurrogate unit || isLowSurrogate unit) = true) :
    ofUnit unit = char (.ofNat unit) := dif_neg whole

end CodePoint

/-! ## Texts -/

namespace Text

@[simp] theorem points_ofChars (chars : List Char) : (ofChars chars).points = chars.map .char := rfl

@[simp] theorem points_append (text other : Text) :
    (text ++ other).points = text.points ++ other.points := rfl

@[simp] theorem chars_ofChars (chars : List Char) : (ofChars chars).chars = chars :=
  CodePoint.map_shown_char chars

@[simp] theorem chars_ofString (text : String) : (text : Text).chars = text.toList :=
  chars_ofChars text.toList

@[simp] theorem shown_ofString (text : String) : (text : Text).shown = text := by
  simp [shown]

@[simp] theorem isUnicode_ofChars (chars : List Char) : (ofChars chars).isUnicode = true := by
  simp [isUnicode]

@[simp] theorem isUnicode_ofString (text : String) : (text : Text).isUnicode = true :=
  isUnicode_ofChars text.toList

@[simp] theorem string?_ofString (text : String) : (text : Text).string? = some text := by
  simp [string?]

theorem ofChars_injective : Function.Injective ofChars := fun text other h => by
  simpa using congrArg chars h

theorem ofString_injective : Function.Injective ofString := fun text other h => by
  simpa using congrArg shown h

@[simp] theorem ofString_inj {text other : String} : (text : Text) = other ↔ text = other :=
  ofString_injective.eq_iff

theorem ofString_shown {text : Text} (unicode : text.isUnicode = true) :
    (text.shown : Text) = text := by
  rw [isUnicode, List.all_eq_true] at unicode
  ext1
  rw [ofString, points_ofChars, shown, String.toList_ofList, chars,
    CodePoint.map_char_shown unicode]

@[simp] theorem isUnicode_append (text other : Text) :
    (text ++ other).isUnicode = (text.isUnicode && other.isUnicode) := List.all_append

@[simp] theorem escaped_ofString (text : String) : (text : Text).escaped = text := by
  have each : text.toList.flatMap (fun c => CodePoint.escaped (.char c)) = text.toList :=
    List.flatMap_singleton' text.toList
  rw [escaped, ofString, points_ofChars, List.flatMap_map, each, String.ofList_toList]

@[simp] theorem escaped_append (text other : Text) :
    (text ++ other).escaped = text.escaped ++ other.escaped := by
  rw [escaped, points_append, List.flatMap_append, String.ofList_append]
  rfl

/-- A text without replaced surrogates is made of its characters. -/
theorem ofChars_chars {text : Text} (plain : '\uFFFD' ∉ text.chars) :
    ofChars text.chars = text := by
  ext1
  refine CodePoint.map_char_shown fun point mem => ?_
  cases point with
  | char c => rfl
  | surrogate half => exact absurd (List.mem_map_of_mem mem) plain

theorem string?_eq_some_iff {text : Text} {string : String} :
    text.string? = some string ↔ text = string := by
  constructor
  · intro h
    unfold string? at h
    split at h
    · next unicode =>
      cases h
      exact (ofString_shown unicode).symm
    · cases h
  · rintro rfl
    exact string?_ofString string

theorem any_string? {text : Text} {holds : String → Bool} :
    text.string?.any holds = true ↔ ∃ string : String, text = string ∧ holds string = true := by
  rw [Option.any_eq_true]
  simp only [string?_eq_some_iff]

end Text
end DesignSystem
