import DesignSystem.Json.Writer
import DesignSystem.Proofs.Text.Basic

/-! # The characters of written documents

The text of a document is made of its code points; these lemmas give its characters part by part.

* `Json.literal_eq`: string literals.
* `Json.render_array`, `Json.render_object`, …: documents.
-/

namespace DesignSystem
set_option autoImplicit false

namespace Json

/-! ## String literals -/

theorem hexDigits_four (n : Nat) : hexDigits 4 n =
    [(n / 4096 % 16).digitChar, (n / 256 % 16).digitChar, (n / 16 % 16).digitChar,
      (n % 16).digitChar] := by
  simp [hexDigits, List.range, List.range.loop]

/-- The characters of a code point in a string literal. -/
def escapedChars (ascii : Bool) (point : CodePoint) : List Char :=
  (escapedPoint ascii point).map CodePoint.shown

@[simp] theorem escapedChars_char (ascii : Bool) (c : Char) :
    escapedChars ascii (.char c) = escaped ascii c :=
  CodePoint.map_shown_char (escaped ascii c)

theorem escapedChars_surrogate (ascii : Bool) (half : Surrogate) :
    escapedChars ascii (.surrogate half) = if ascii then half.escape else ['\uFFFD'] := by
  cases ascii with
  | false => rfl
  | true => exact CodePoint.map_shown_char half.escape

theorem literal_eq (ascii : Bool) (text : Text) :
    literal ascii text = '"' :: (text.points.flatMap (escapedChars ascii) ++ ['"']) := by
  rw [literal, literalPoints, List.map_cons, List.map_append, List.map_flatMap]
  rfl

/-! ## Documents -/

section
variable (style : Style) (depth : Nat)

attribute [local simp] render renderItems renderField renderFields points itemPoints fieldPoints
  fieldsPoints

theorem render_null : null.render style depth = ['n', 'u', 'l', 'l'] := by simp

theorem render_true : (bool true).render style depth = ['t', 'r', 'u', 'e'] := by simp

theorem render_false : (bool false).render style depth = ['f', 'a', 'l', 's', 'e'] := by simp

theorem render_number (n : Number) : (number n).render style depth = numberLiteral n := by simp

theorem render_string (text : Text) :
    (string text).render style depth = literal style.ascii text := by simp [literal]

theorem render_noItems : (array []).render style depth = ['[', ']'] := by simp

theorem render_array (item : Json) (items : List Json) :
    (array (item :: items)).render style depth =
      '[' :: (style.edge (depth + 1) ++ (item.render style (depth + 1) ++
        (renderItems style (depth + 1) items ++ (style.edge depth ++ [']'])))) := by simp

theorem render_noFields : (object []).render style depth = ['\x7b', '\x7d'] := by simp

theorem render_object (field : String × Json) (fields : Fields) :
    (object (field :: fields)).render style depth =
      '\x7b' :: (style.edge (depth + 1) ++ (renderField style (depth + 1) field ++
        (renderFields style (depth + 1) fields ++ (style.edge depth ++ ['\x7d'])))) := by simp

@[simp] theorem renderItems_nil : renderItems style depth [] = [] := by simp

theorem renderItems_cons (item : Json) (items : List Json) :
    renderItems style depth (item :: items) =
      style.separator depth ++ (item.render style depth ++ renderItems style depth items) := by
  simp

theorem renderField_eq (name : String) (value : Json) :
    renderField style depth (name, value) =
      literal style.ascii name ++ (':' :: ' ' :: value.render style depth) := by simp [literal]

@[simp] theorem renderFields_nil : renderFields style depth [] = [] := by simp

theorem renderFields_cons (field : String × Json) (fields : Fields) :
    renderFields style depth (field :: fields) =
      style.separator depth ++ (renderField style depth field ++
        renderFields style depth fields) := by simp

end

end Json
end DesignSystem
