import DesignSystem.Proofs.Json.Lexical

/-! # What JSON texts mean

The texts of the grammar mean documents. Where a dialect has words for the numbers without digits,
texts with such words mean documents as well.

* `Json.Dialect`: the words and integers that a dialect takes.
* `Json.Means`, `Json.MeansText`: the grammar with the documents its texts mean.
-/

namespace DesignSystem
set_option autoImplicit false

namespace Json

/-! ## Documents of texts -/

/-- What texts may hold beyond the documents that every reader takes. -/
structure Dialect where
  /-- Words for numbers without digits. -/
  words : Bool
  /-- Integers of any number of digits. -/
  long : Bool

/-- What the parts of a text mean. -/
inductive Content where
  | value (document : Json)
  | items (items : List Json)
  | fields (fields : Fields)

/-- A text with the document, the items or the fields that it means. Of several fields of one name
the last one counts, at the place of the first. The names of fields are Unicode texts. -/
inductive Means (dialect : Dialect) : List Char → Content → Prop where
  | null : Means dialect ['n', 'u', 'l', 'l'] (.value .null)
  | true : Means dialect ['t', 'r', 'u', 'e'] (.value (.bool true))
  | false : Means dialect ['f', 'a', 'l', 's', 'e'] (.value (.bool false))
  | word (word : SpecialWord) (accepted : dialect.words = Bool.true) :
      Means dialect word.text.toList (.value (.number (.float word.value)))
  | number (parts : NumeralParts) {text : List Char} (spells : parts.Spells text)
      (accepted : parts.IsLong → dialect.long = Bool.true) :
      Means dialect text (.value (.number parts.value))
  | string {text : List Char} {value : Text} (quotes : Quotes text value.points) :
      Means dialect ('"' :: (text ++ ['"'])) (.value (.string value))
  | noItems {gap : List Char} (blank : IsGap gap) :
      Means dialect ('[' :: (gap ++ [']'])) (.value (.array []))
  | array {text : List Char} {items : List Json} (inner : Means dialect text (.items items)) :
      Means dialect ('[' :: (text ++ [']'])) (.value (.array items))
  | noFields {gap : List Char} (blank : IsGap gap) :
      Means dialect ('\x7b' :: (gap ++ ['\x7d'])) (.value (.object []))
  | object {text : List Char} {fields : Fields} (inner : Means dialect text (.fields fields)) :
      Means dialect ('\x7b' :: (text ++ ['\x7d'])) (.value (.object (collect fields)))
  | item {before text after : List Char} {item : Json} (start : IsGap before)
      (inner : Means dialect text (.value item)) (finish : IsGap after) :
      Means dialect (before ++ (text ++ after)) (.items [item])
  | items {before text after others : List Char} {item : Json} {items : List Json}
      (start : IsGap before) (inner : Means dialect text (.value item)) (finish : IsGap after)
      (rest : Means dialect others (.items items)) :
      Means dialect (before ++ (text ++ (after ++ ',' :: others))) (.items (item :: items))
  | field {before spelled colon space text after : List Char} {name : Text} {value : Json}
      (start : IsGap before) (quotes : Quotes spelled name.points) (first : IsGap colon)
      (second : IsGap space) (inner : Means dialect text (.value value)) (finish : IsGap after) :
      Means dialect (before ++ ('"' :: (spelled ++ '"' :: (colon ++ ':' ::
        (space ++ (text ++ after)))))) (.fields [(name.shown, value)])
  | fields {before spelled colon space text after others : List Char} {name : Text}
      {value : Json} {fields : Fields} (start : IsGap before)
      (quotes : Quotes spelled name.points) (first : IsGap colon)
      (second : IsGap space) (inner : Means dialect text (.value value)) (finish : IsGap after)
      (rest : Means dialect others (.fields fields)) :
      Means dialect (before ++ ('"' :: (spelled ++ '"' :: (colon ++ ':' ::
        (space ++ (text ++ (after ++ ',' :: others))))))) (.fields ((name.shown, value) :: fields))

/-- A text with the document that it means, with blanks around it. -/
def MeansText (dialect : Dialect) (text : List Char) (document : Json) : Prop :=
  ∃ before value after, IsGap before ∧ Means dialect value (.value document) ∧ IsGap after ∧
    text = before ++ (value ++ after)

end Json
end DesignSystem
