import DesignSystem.Proofs.Json.Opening
import DesignSystem.Proofs.Json.Parts

/-! # Line ends in rendered documents

* `Json.return_not_mem_render`: no text of a document has a carriage return.
-/

namespace DesignSystem
set_option autoImplicit false

namespace Json

/-! ## Literals -/

theorem not_mem_hexDigits {c : Char} (h : ∀ d < 16, d.digitChar ≠ c) (n : Nat) :
    c ∉ hexDigits 4 n := by
  rw [hexDigits_four]
  simp only [List.mem_cons, List.not_mem_nil, or_false, not_or]
  exact ⟨(h _ (Nat.mod_lt _ (by decide))).symm, (h _ (Nat.mod_lt _ (by decide))).symm,
    (h _ (Nat.mod_lt _ (by decide))).symm, (h _ (Nat.mod_lt _ (by decide))).symm⟩

theorem return_not_mem_escaped (ascii : Bool) (c : Char) : '\r' ∉ escaped ascii c := by
  have digits : ∀ n, '\r' ∉ hexDigits 4 n := not_mem_hexDigits (by decide)
  simp only [escaped, unicodeEscape, Bool.or_eq_true, beq_iff_eq, decide_eq_true_eq]
  split
  · next quoted => rcases quoted with rfl | rfl <;> decide
  split
  · decide
  split
  · decide
  split
  · decide
  split
  · decide
  split
  · decide
  split
  · split <;> simp [digits]
  · next carriage _ _ _ _ => simpa using Ne.symm carriage

theorem return_not_mem_escapedChars (ascii : Bool) (point : CodePoint) :
    '\r' ∉ escapedChars ascii point := by
  cases point with
  | char c =>
    rw [escapedChars_char]
    exact return_not_mem_escaped ascii c
  | surrogate half =>
    have digits : '\r' ∉ hexDigits 4 half.unit := not_mem_hexDigits (by decide) half.unit
    rw [escapedChars_surrogate]
    split <;> simp [Surrogate.escape, digits]

theorem return_not_mem_literal (ascii : Bool) (text : Text) : '\r' ∉ literal ascii text := by
  simp [literal_eq, return_not_mem_escapedChars]

theorem return_not_mem_edge (style : Style) (depth : Nat) : '\r' ∉ style.edge depth := by
  unfold Style.edge
  split <;> simp

theorem return_not_mem_separator (style : Style) (depth : Nat) :
    '\r' ∉ style.separator depth := by
  unfold Style.separator
  split <;> simp

theorem Spelling.Valid.return_not_mem {s : Spelling} (valid : s.Valid) : '\r' ∉ s.text :=
  fun mem => absurd (valid.isNumeralChar mem) (by decide)

/-! ## Documents -/

theorem return_not_mem_renderItems {style : Style} {items : List Json}
    (each : ∀ i ∈ items, ∀ depth, '\r' ∉ i.render style depth) (depth : Nat) :
    '\r' ∉ renderItems style depth items := by
  induction items with
  | nil => simp
  | cons item items ih =>
    rw [List.forall_mem_cons] at each
    simp [renderItems_cons, return_not_mem_separator, each.1 depth, ih each.2]

theorem return_not_mem_renderField {style : Style} {field : String × Json} {depth : Nat}
    (value : '\r' ∉ field.2.render style depth) : '\r' ∉ renderField style depth field := by
  obtain ⟨name, document⟩ := field
  simpa [renderField_eq, return_not_mem_literal] using value

theorem return_not_mem_renderFields {style : Style} {fields : Fields}
    (each : ∀ f ∈ fields, ∀ depth, '\r' ∉ Json.render style depth f.2) (depth : Nat) :
    '\r' ∉ renderFields style depth fields := by
  induction fields with
  | nil => simp
  | cons field fields ih =>
    rw [List.forall_mem_cons] at each
    simp [renderFields_cons, return_not_mem_separator, return_not_mem_renderField (each.1 depth),
      ih each.2]

/-- No text of a document has a carriage return. -/
theorem return_not_mem_render (style : Style) (depth : Nat) {document : Json}
    (writable : document.unwritable? true = none) : '\r' ∉ document.render style depth := by
  induction document using Json.induction generalizing depth with
  | null => simp [render_null]
  | bool value => cases value <;> simp [render_true, render_false]
  | number n =>
    rw [unwritable?] at writable
    obtain ⟨s, valid, literal⟩ := numberLiteral_eq_text writable
    rw [render_number, literal]
    exact valid.return_not_mem
  | string text =>
    rw [render_string]
    exact return_not_mem_literal style.ascii text
  | array items ih =>
    rw [unwritable?, unwritableItem?_eq_none] at writable
    have each := fun i mem depth => ih i mem depth (writable i mem)
    cases items with
    | nil => simp [render_noItems]
    | cons item items =>
      rw [List.forall_mem_cons] at each
      simp [render_array, return_not_mem_edge, each.1 (depth + 1),
        return_not_mem_renderItems each.2 (depth + 1)]
  | object fields ih =>
    rw [unwritable?, unwritableField?_eq_none] at writable
    have each := fun f mem depth => ih f mem depth (writable f mem)
    cases fields with
    | nil => simp [render_noFields]
    | cons field fields =>
      rw [List.forall_mem_cons] at each
      simp [render_object, return_not_mem_edge, return_not_mem_renderField (each.1 (depth + 1)),
        return_not_mem_renderFields each.2 (depth + 1)]

end Json
end DesignSystem
