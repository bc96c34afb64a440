import DesignSystem.Proofs.Json.Parts
import DesignSystem.Proofs.Text.Basic
import DesignSystem.Text.Utf8

/-! # Documents whose text has bytes

Where all characters are written, a surrogate on its own stands in the text as it is, and no bytes
stand for it.

* `Utf8.unencodable?_eq_none`: the texts that have bytes.
* `Json.isChar_points`: the documents whose text is one of them.
-/

namespace DesignSystem
set_option autoImplicit false

/-! ## Texts -/

namespace Utf8

theorem unencodableFrom_eq_none {points : List CodePoint} (position : Nat) :
    unencodableFrom position points = none ↔ ∀ point ∈ points, point.isChar = true := by
  induction points generalizing position with
  | nil => simp [unencodableFrom]
  | cons point points ih => cases point <;> simp [unencodableFrom, ih]

/-- The texts that have bytes are the Unicode texts. -/
theorem unencodable?_eq_none {points : List CodePoint} :
    unencodable? points = none ↔ ∀ point ∈ points, point.isChar = true :=
  unencodableFrom_eq_none 0

end Utf8

namespace Json

/-! ## Documents -/

variable {style : Style}

theorem isChar_literalPoints (text : Text) :
    (∀ point ∈ literalPoints false text, point.isChar = true) ↔ text.isUnicode = true := by
  have each : ∀ point : CodePoint,
      (∀ written ∈ escapedPoint false point, written.isChar = true) ↔ point.isChar = true := by
    rintro (c | half) <;> simp [escapedPoint]
  simp only [literalPoints, List.forall_mem_cons, List.forall_mem_append, List.forall_mem_flatMap,
    each, CodePoint.isChar_char, Text.isUnicode, List.all_eq_true]
  simp

theorem isChar_itemPoints (depth : Nat) (items : List Json) :
    (∀ point ∈ itemPoints style depth items, point.isChar = true) ↔
      ∀ item ∈ items, ∀ point ∈ item.points style depth, point.isChar = true := by
  induction items with
  | nil => simp [itemPoints]
  | cons item items ih =>
    rw [itemPoints, List.forall_mem_append, List.forall_mem_append, ih, List.forall_mem_cons]
    simp

theorem isChar_fieldPoints (full : style.ascii = false) (depth : Nat) (field : String × Json) :
    (∀ point ∈ fieldPoints style depth field, point.isChar = true) ↔
      ∀ point ∈ field.2.points style depth, point.isChar = true := by
  obtain ⟨name, value⟩ := field
  have named := (isChar_literalPoints name).mpr (Text.isUnicode_ofString name)
  rw [fieldPoints, full, List.forall_mem_append, and_iff_right named]
  simp

theorem isChar_fieldsPoints (full : style.ascii = false) (depth : Nat) (fields : Fields) :
    (∀ point ∈ fieldsPoints style depth fields, point.isChar = true) ↔
      ∀ field ∈ fields, ∀ point ∈ Json.points style depth field.2, point.isChar = true := by
  induction fields with
  | nil => simp [fieldsPoints]
  | cons field fields ih =>
    rw [fieldsPoints, List.forall_mem_append, List.forall_mem_append, ih, List.forall_mem_cons,
      isChar_fieldPoints full]
    simp

/-- The text of a document with all its characters is Unicode if the document is. -/
theorem isChar_points (full : style.ascii = false) (depth : Nat) {document : Json} :
    (∀ point ∈ document.points style depth, point.isChar = true) ↔ document.Unicode := by
  induction document using Json.induction generalizing depth with
  | null => simp [points, Unicode, texts]
  | bool value => cases value <;> simp [points, Unicode, texts]
  | number n => simp [points, Unicode, texts]
  | string text => rw [points, full, isChar_literalPoints, unicode_string]
  | array items ih =>
    rw [unicode_array]
    cases items with
    | nil => simp [points]
    | cons item items =>
      rw [← forall₂_congr fun i mem => ih i mem (depth + 1), List.forall_mem_cons,
        ← isChar_itemPoints, points]
      simp [or_imp, forall_and]
  | object fields ih =>
    rw [unicode_object]
    cases fields with
    | nil => simp [points]
    | cons field fields =>
      rw [← forall₂_congr fun f mem => ih f mem (depth + 1), List.forall_mem_cons,
        ← isChar_fieldsPoints full, ← isChar_fieldPoints full, points]
      simp [or_imp, forall_and]

end Json
end DesignSystem
