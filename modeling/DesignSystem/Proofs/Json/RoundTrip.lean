import DesignSystem.Proofs.Json.Literal
import DesignSystem.Proofs.Json.Parsing
import DesignSystem.Proofs.Json.Parts

/-! # Rendered documents are read back

What the text of a document means is the document. In ASCII, surrogates that make a character are
read as the character.

* `Json.joined`: a document with such surrogates as characters.
* `Json.means_render`: what the text of a document means, in every style.
* `Json.readValue_render`, `Json.read_render`: it is read as that.
-/

namespace DesignSystem
set_option autoImplicit false

namespace Json

/-! ## Joined documents -/

mutual

/-- A document with joined texts. -/
def joined : Json → Json
  | string text => string text.joined
  | array items => array (joinedItems items)
  | object fields => object (joinedFields fields)
  | document => document

def joinedItems : List Json → List Json
  | [] => []
  | item :: items => joined item :: joinedItems items

def joinedField : String × Json → String × Json
  | (name, value) => (name, joined value)

def joinedFields : List (String × Json) → List (String × Json)
  | [] => []
  | field :: fields => joinedField field :: joinedFields fields

end

theorem joinedItems_eq_map (items : List Json) : joinedItems items = items.map joined := by
  induction items with
  | nil => rfl
  | cons item items ih => rw [joinedItems, ih, List.map_cons]

theorem joinedFields_eq_map (fields : Fields) :
    joinedFields fields = fields.map fun field => (field.1, field.2.joined) := by
  induction fields with
  | nil => rfl
  | cons field fields ih =>
    obtain ⟨name, value⟩ := field
    rw [joinedFields, joinedField, ih, List.map_cons]

theorem joined_array (items : List Json) : (array items).joined = array (items.map joined) := by
  rw [joined, joinedItems_eq_map]

theorem joined_object (fields : Fields) : (object fields).joined =
    object (fields.map fun field => (field.1, field.2.joined)) := by
  rw [joined, joinedFields_eq_map]

theorem get?_joined (fields : Fields) (name : String) :
    Fields.get? (fields.map fun field => (field.1, field.2.joined)) name =
      (fields.get? name).map joined := by
  induction fields with
  | nil => rfl
  | cons field fields ih =>
    obtain ⟨key, value⟩ := field
    simp only [Fields.get?, List.map_cons, List.lookup_cons] at ih ⊢
    rw [ih]
    cases name == key <;> rfl

theorem joined_finite {document : Json} : document.joined.Finite ↔ document.Finite := by
  induction document using Json.induction with
  | null | bool | number => exact .rfl
  | string text => exact ⟨fun _ => .string _, fun _ => .string _⟩
  | array items ih =>
    rw [joined_array, finite_array, finite_array, List.forall_mem_map]
    exact forall₂_congr ih
  | object fields ih =>
    rw [joined_object, finite_object, finite_object, List.forall_mem_map]
    exact forall₂_congr ih

/-- A document whose surrogates make no characters. -/
def IsJoined (document : Json) : Prop := ∀ text ∈ document.texts, text.IsJoined

theorem IsJoined.joined_eq_self {document : Json} (each : document.IsJoined) :
    document.joined = document := by
  induction document using Json.induction with
  | null | bool | number => rfl
  | string text => rw [joined, (each text (by simp [texts])).joined_eq_self]
  | array items ih =>
    rw [joined_array]
    congr 1
    conv => rhs; rw [← List.map_id items]
    exact List.map_congr_left fun item mem => ih item mem (forall_itemTexts.mp each item mem)
  | object fields ih =>
    rw [joined_object]
    congr 1
    conv => rhs; rw [← List.map_id fields]
    exact List.map_congr_left fun field mem =>
      Prod.ext rfl (ih field mem (forall_fieldTexts.mp each field mem))

theorem Unicode.joined_eq_self {document : Json} (unicode : document.Unicode) :
    document.joined = document :=
  IsJoined.joined_eq_self fun text mem => Text.isJoined_of_isUnicode (unicode text mem)

theorem isJoined_string (text : String) : (string text).IsJoined := by
  have joined : (text : Text).IsJoined := Text.isJoined_of_isUnicode (Text.isUnicode_ofString text)
  simpa [IsJoined, texts] using joined

/-- Fields with joined documents are found as they were. -/
theorem get?_joined_eq_some {fields : Fields} {name : String} {document : Json}
    (isJoined : document.IsJoined) (found : fields.get? name = some document) :
    Fields.get? (fields.map fun field => (field.1, field.2.joined)) name = some document := by
  rw [get?_joined, found, Option.map_some, isJoined.joined_eq_self]

theorem isJoined_inherited : Inherited IsJoined where
  item each := forall_itemTexts.mp each
  field each := forall_fieldTexts.mp each

theorem isJoined_built : Built IsJoined where
  null := by simp [IsJoined, texts]
  bool _ := by simp [IsJoined, texts]
  string reads := by simpa [IsJoined, texts] using readString_isJoined reads
  number _ := by simp [IsJoined, texts]
  special _ := by simp [IsJoined, texts]
  array each := by
    rw [IsJoined, texts, forall_itemTexts]
    exact each
  object _ each := by
    rw [IsJoined, texts, forall_fieldTexts]
    exact each

/-! ## Meanings -/

variable {words : Bool} {style : Style}

theorem means_number {n : Number} (writable : unwritableNumber? (!words) n = none) :
    Means ⟨words, false⟩ (numberLiteral n) (.value (number n)) := by
  have numeral (writable : unwritableNumber? true n = none) :
      Means ⟨words, false⟩ (numberLiteral n) (.value (number n)) := by
    have reads := readNumber_literal writable endsNumeral_nil
    rw [List.append_nil] at reads
    obtain ⟨used, means, same⟩ := readNumber_eq_ok reads
    rwa [same, List.append_nil]
  cases n with
  | int n => exact numeral writable
  | float x =>
    cases finite : x.isFinite with
    | true => exact numeral (by simp [unwritableNumber?, finite])
    | false =>
      obtain ⟨word, rfl, text⟩ := exists_word finite
      cases words with
      | true =>
        rw [text]
        exact .word word rfl
      | false => simp [unwritableNumber?, finite] at writable

theorem means_literal {text : Text} (spellable : Spellable style.ascii text) :
    Means ⟨words, false⟩ (literal style.ascii text) (.value (string text.joined)) := by
  rw [literal_eq]
  exact .string spellable.quotes

theorem means_items {depth : Nat} {item : Json} {items : List Json}
    (each : ∀ i ∈ item :: items,
      Means ⟨words, false⟩ (i.render style depth) (.value i.joined)) {before after : List Char}
    (start : IsGap before) (finish : IsGap after) :
    Means ⟨words, false⟩ (before ++ (item.render style depth ++
      (renderItems style depth items ++ after))) (.items ((item :: items).map joined)) := by
  induction items generalizing item before with
  | nil =>
    rw [renderItems_nil]
    exact .item start (each item List.mem_cons_self) finish
  | cons next items ih =>
    obtain ⟨gap, separator, blank⟩ := separator_eq style depth
    have rest := ih (fun i mem => each i (List.mem_cons_of_mem item mem)) blank
    rw [renderItems_cons, separator]
    simpa using Means.items start (each item List.mem_cons_self) isGap_nil rest

theorem means_fields {depth : Nat} {field : String × Json} {fields : Fields}
    (each : ∀ f ∈ field :: fields,
      Means ⟨words, false⟩ (f.2.render style depth) (.value f.2.joined))
    {before after : List Char} (start : IsGap before) (finish : IsGap after) :
    Means ⟨words, false⟩ (before ++ (renderField style depth field ++
      (renderFields style depth fields ++ after)))
      (.fields ((field :: fields).map fun f => (f.1, f.2.joined))) := by
  have space : IsGap [' '] := by simp [IsGap, isBlank]
  have quotes (name : String) := (@Spellable.quotes style.ascii name (.inr (by simp)))
  induction fields generalizing field before with
  | nil =>
    obtain ⟨name, value⟩ := field
    have single := Means.field start (quotes name) isGap_nil space
      (each (name, value) List.mem_cons_self) finish
    simpa [renderField_eq, literal_eq] using single
  | cons next fields ih =>
    obtain ⟨name, value⟩ := field
    obtain ⟨gap, separator, blank⟩ := separator_eq style depth
    have rest := ih (fun f mem => each f (List.mem_cons_of_mem (name, value) mem)) blank
    have more := Means.fields start (quotes name) isGap_nil space
      (each (name, value) List.mem_cons_self) isGap_nil rest
    rw [renderFields_cons, separator]
    simpa [renderField_eq, literal_eq] using more

/-- A document whose texts can be spelled in a style. -/
def Spelled (style : Style) (document : Json) : Prop := style.ascii = true ∨ document.Unicode

/-- The text of a document with distinct names means the document, where words for numbers are
taken as they are written. -/
theorem means_render (depth : Nat) {document : Json} (distinct : document.Distinct)
    (spelled : document.Spelled style) (writable : document.unwritable? (!words) = none) :
    Means ⟨words, false⟩ (document.render style depth) (.value document.joined) := by
  induction document using Json.induction generalizing depth with
  | null =>
    rw [render_null]
    exact .null
  | bool value =>
    cases value with
    | false =>
      rw [render_false]
      exact .false
    | true =>
      rw [render_true]
      exact .true
  | number n =>
    rw [render_number]
    exact means_number writable
  | string text =>
    rw [render_string]
    exact means_literal (spelled.imp_right unicode_string.mp)
  | array items ih =>
    rw [unwritable?, unwritableItem?_eq_none] at writable
    have each := fun i mem => ih i mem (depth + 1) (distinct.item i mem)
      (spelled.imp_right fun unicode => unicode_array.mp unicode i mem) (writable i mem)
    rw [joined_array]
    cases items with
    | nil =>
      rw [render_noItems]
      exact .noItems isGap_nil
    | cons item items =>
      rw [render_array]
      simpa using Means.array (means_items each (isGap_edge style (depth + 1))
        (isGap_edge style depth))
  | object fields ih =>
    rw [unwritable?, unwritableField?_eq_none] at writable
    have each := fun f mem => ih f mem (depth + 1) (distinct.entry f mem)
      (spelled.imp_right fun unicode => unicode_object.mp unicode f mem) (writable f mem)
    rw [joined_object]
    cases fields with
    | nil =>
      rw [render_noFields]
      exact .noFields isGap_nil
    | cons field fields =>
      have inner := Means.object (means_fields each (isGap_edge style (depth + 1))
        (isGap_edge style depth))
      have names : (((field :: fields).map fun f => (f.1, f.2.joined)).map Prod.fst).Nodup := by
        rw [List.map_map]
        exact distinct.names
      rw [collect_eq_self names] at inner
      rw [render_object]
      simpa using inner

/-! ## Reading back -/

/-- The text of a document is read as the document before every text that does not continue a
numeral. -/
theorem readValue_render (words : Bool) (style : Style) {document : Json}
    (distinct : document.Distinct) (spelled : document.Spelled style)
    (writable : document.unwritable? (!words) = none) (depth : Nat) {fuel : Nat}
    (hf : (document.render style depth).length ≤ fuel) {rest : List Char}
    (hr : EndsNumeral rest) :
    readValue words fuel (document.render style depth ++ rest) = .ok (document.joined, rest) :=
  readValue_of_means (means_render depth distinct spelled writable) hf hr

/-- The text of a document, blanks after it apart, is read as the document. -/
theorem read_render (words : Bool) (style : Style) {document : Json}
    (distinct : document.Distinct) (spelled : document.Spelled style)
    (writable : document.unwritable? (!words) = none) {after : List Char}
    (blank : ∀ c ∈ after, isBlank c = true) :
    read words (document.render style 0 ++ after) = .ok document.joined :=
  read_eq_ok.mpr ⟨[], _, after, isGap_nil, means_render 0 distinct spelled writable, blank, rfl⟩

end Json
end DesignSystem
