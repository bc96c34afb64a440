import DesignSystem.Json.Reader
import DesignSystem.Json.Writer
import DesignSystem.Proofs.Dict
import DesignSystem.Proofs.Outcome

/-! # Documents and their parts

* `Json.induction`: induction on documents, through items and fields.
* `Json.Distinct`: the documents whose objects have each name once; their parts are such documents.
* `Json.Unicode`: the documents whose texts have no surrogates on their own.
* `Json.Built`, `Json.read_built`: properties that are built up while a document is read.
* `Json.unwritableItem?_eq_none`, `Json.unwritableField?_eq_none`: containers are written if all
  their parts are.
-/

namespace DesignSystem
set_option autoImplicit false

namespace Json

/-! ## Induction -/

theorem induction {motive : Json → Prop} (null : motive null) (bool : ∀ value, motive (bool value))
    (number : ∀ value, motive (number value)) (string : ∀ value, motive (string value))
    (array : ∀ items, (∀ item ∈ items, motive item) → motive (array items))
    (object : ∀ fields : Fields, (∀ field ∈ fields, motive field.2) → motive (object fields))
    (document : Json) : motive document :=
  @Json.rec motive (fun items => ∀ item ∈ items, motive item)
    (fun fields => ∀ field ∈ fields, motive field.2) (fun field => motive field.2)
    null bool number string array object
    (fun _ mem => absurd mem List.not_mem_nil)
    (fun _ _ first rest => List.forall_mem_cons.mpr ⟨first, rest⟩)
    (fun _ mem => absurd mem List.not_mem_nil)
    (fun _ _ first rest => List.forall_mem_cons.mpr ⟨first, rest⟩)
    (fun _ _ value => value) document

/-! ## Distinct names -/

/-- A document whose objects, at any depth, have each name once. -/
inductive Distinct : Json → Prop where
  | null : Distinct null
  | bool (value : Bool) : Distinct (bool value)
  | number (value : Number) : Distinct (number value)
  | string (value : Text) : Distinct (string value)
  | array (items : List Json) (each : ∀ item ∈ items, Distinct item) : Distinct (array items)
  | object (fields : Fields) (names : (fields.map Prod.fst).Nodup)
      (each : ∀ field ∈ fields, Distinct field.2) : Distinct (object fields)

mutual

/-- Whether the objects of a document have each name once. -/
def hasDistinctNames : Json → Bool
  | array items => itemsHaveDistinctNames items
  | object fields => decide (fields.map Prod.fst).Nodup && fieldsHaveDistinctNames fields
  | _ => true

def itemsHaveDistinctNames : List Json → Bool
  | [] => true
  | item :: items => hasDistinctNames item && itemsHaveDistinctNames items

def valueHasDistinctNames : String × Json → Bool
  | (_, value) => hasDistinctNames value

def fieldsHaveDistinctNames : List (String × Json) → Bool
  | [] => true
  | field :: fields => valueHasDistinctNames field && fieldsHaveDistinctNames fields

end

theorem itemsHaveDistinctNames_iff {items : List Json} :
    itemsHaveDistinctNames items = true ↔ ∀ item ∈ items, hasDistinctNames item = true := by
  induction items with
  | nil => simp [itemsHaveDistinctNames]
  | cons item items ih => simp [itemsHaveDistinctNames, ih]

theorem fieldsHaveDistinctNames_iff {fields : Fields} :
    fieldsHaveDistinctNames fields = true ↔
      ∀ field ∈ fields, hasDistinctNames field.2 = true := by
  induction fields with
  | nil => simp [fieldsHaveDistinctNames]
  | cons field fields ih =>
    obtain ⟨name, value⟩ := field
    rw [fieldsHaveDistinctNames, Bool.and_eq_true, ih, List.forall_mem_cons,
      valueHasDistinctNames]

theorem hasDistinctNames_iff {document : Json} :
    document.hasDistinctNames = true ↔ document.Distinct := by
  constructor
  · intro h
    induction document using Json.induction with
    | null => exact .null
    | bool value => exact .bool value
    | number value => exact .number value
    | string value => exact .string value
    | array items ih =>
      rw [hasDistinctNames, itemsHaveDistinctNames_iff] at h
      exact .array items fun item mem => ih item mem (h item mem)
    | object fields ih =>
      rw [hasDistinctNames, Bool.and_eq_true, decide_eq_true_eq, fieldsHaveDistinctNames_iff] at h
      exact .object fields h.1 fun field mem => ih field mem (h.2 field mem)
  · intro h
    induction h with
    | null | bool | number | string => simp [hasDistinctNames]
    | array items _ ih =>
      rw [hasDistinctNames, itemsHaveDistinctNames_iff]
      exact ih
    | object fields names _ ih =>
      rw [hasDistinctNames, Bool.and_eq_true, decide_eq_true_eq, fieldsHaveDistinctNames_iff]
      exact ⟨names, ih⟩

instance (document : Json) : Decidable document.Distinct :=
  decidable_of_iff _ hasDistinctNames_iff

theorem Distinct.item {items : List Json} (distinct : (Json.array items).Distinct) :
    ∀ item ∈ items, item.Distinct := by
  cases distinct with
  | array _ each => exact each

theorem Distinct.entry {fields : Fields} (distinct : (Json.object fields).Distinct) :
    ∀ field ∈ fields, field.2.Distinct := by
  cases distinct with
  | object _ _ each => exact each

theorem Distinct.names {fields : Fields} (distinct : (Json.object fields).Distinct) :
    (fields.map Prod.fst).Nodup := by
  cases distinct with
  | object _ names _ => exact names

theorem Distinct.field {fields : Fields} (distinct : (Json.object fields).Distinct)
    {name : String} {part : Json} (found : fields.get? name = some part) : part.Distinct :=
  distinct.entry _ (mem_of_lookup found)

/-! ## Texts -/

mutual

/-- The texts that are values in a document. -/
def texts : Json → List Text
  | string text => [text]
  | array items => itemTexts items
  | object fields => fieldTexts fields
  | _ => []

def itemTexts : List Json → List Text
  | [] => []
  | item :: items => texts item ++ itemTexts items

def valueTexts : String × Json → List Text
  | (_, value) => texts value

def fieldTexts : List (String × Json) → List Text
  | [] => []
  | field :: fields => valueTexts field ++ fieldTexts fields

end

/-- A document whose texts are Unicode texts. -/
def Unicode (document : Json) : Prop := ∀ text ∈ document.texts, text.isUnicode = true

instance (document : Json) : Decidable document.Unicode :=
  inferInstanceAs (Decidable (∀ text ∈ document.texts, text.isUnicode = true))

section
variable {holds : Text → Prop}

theorem forall_itemTexts {items : List Json} :
    (∀ text ∈ itemTexts items, holds text) ↔ ∀ item ∈ items, ∀ text ∈ item.texts, holds text := by
  induction items with
  | nil => simp [itemTexts]
  | cons item items ih => rw [itemTexts, List.forall_mem_append, ih, List.forall_mem_cons]

theorem forall_fieldTexts {fields : Fields} :
    (∀ text ∈ fieldTexts fields, holds text) ↔
      ∀ field ∈ fields, ∀ text ∈ field.2.texts, holds text := by
  induction fields with
  | nil => simp [fieldTexts]
  | cons field fields ih =>
    obtain ⟨name, value⟩ := field
    rw [fieldTexts, List.forall_mem_append, ih, List.forall_mem_cons, valueTexts]

end

theorem unicode_string {text : Text} : (string text).Unicode ↔ text.isUnicode = true := by
  simp [Unicode, texts]

theorem unicode_array {items : List Json} :
    (array items).Unicode ↔ ∀ item ∈ items, item.Unicode := by
  rw [Unicode, texts, forall_itemTexts]
  rfl

theorem unicode_object {fields : Fields} :
    (object fields).Unicode ↔ ∀ field ∈ fields, field.2.Unicode := by
  rw [Unicode, texts, forall_fieldTexts]
  rfl

/-! ## Documents that are read -/

/-- A property of the scalars that are read, which containers take over from their parts. -/
structure Built (holds : Json → Prop) : Prop where
  null : holds null
  bool : ∀ value, holds (bool value)
  string : ∀ {text rest value}, readString text = .ok (value, rest) → holds (string value)
  number : ∀ {text rest n}, readNumber text = .ok (number n, rest) → holds (number n)
  special : ∀ word : SpecialWord, holds (.number (.float word.value))
  array : ∀ {items}, (∀ item ∈ items, holds item) → holds (array items)
  object : ∀ {fields : Fields}, (fields.map Prod.fst).Nodup → (∀ field ∈ fields, holds field.2) →
    holds (object fields)

theorem distinct_built : Built Distinct where
  null := .null
  bool := .bool
  string _ := .string _
  number _ := .number _
  special _ := .number _
  array := .array _
  object := .object _

section
variable {holds : Json → Prop} (built : Built holds) {acceptSpecial : Bool}

include built

theorem readSpecial_built {word : SpecialWord} {text rest : List Char} {document : Json}
    (h : readSpecial acceptSpecial word text = .ok (document, rest)) : holds document := by
  unfold readSpecial at h
  split at h
  · cases h
    exact built.special word
  · cases h

theorem readNumber_built {text rest : List Char} {document : Json}
    (h : readNumber text = .ok (document, rest)) : holds document := by
  have reads := h
  unfold readNumber at h
  split at h
  · cases h
  · obtain ⟨number, -, h⟩ := bind_eq_ok h
    cases h
    exact built.number reads

theorem readScalar_built {text rest : List Char} {document : Json}
    (h : readScalar acceptSpecial text = .ok (document, rest)) : holds document := by
  unfold readScalar at h
  split at h
  · obtain ⟨⟨value, after⟩, reads, h⟩ := bind_eq_ok h
    cases h
    exact built.string reads
  · cases h
    exact built.null
  · cases h
    exact built.bool true
  · cases h
    exact built.bool false
  · exact readSpecial_built built h
  · exact readSpecial_built built h
  · exact readSpecial_built built h
  · exact readNumber_built built h

/-- What is read at any place has the property, and so do its parts. -/
theorem readParts_built (fuel : Nat) :
    (∀ text document rest, readValue acceptSpecial fuel text = .ok (document, rest) →
      holds document) ∧
    (∀ text items rest, readItems acceptSpecial fuel text = .ok (items, rest) →
      ∀ item ∈ items, holds item) ∧
    (∀ text fields rest, readFields acceptSpecial fuel text = .ok (fields, rest) →
      ∀ field ∈ fields, holds field.2) := by
  induction fuel with
  | zero =>
    refine ⟨fun text document rest h => ?_, fun text items rest h => ?_,
      fun text fields rest h => ?_⟩
    · simp [readValue, fault] at h
    · simp [readItems, fault] at h
    · simp [readFields, fault] at h
  | succ fuel ih =>
    obtain ⟨value, items, fields⟩ := ih
    refine ⟨fun text document rest h => ?_, fun text found rest h => ?_,
      fun text found rest h => ?_⟩
    · rw [readValue.eq_def] at h
      split at h
      · cases h
      · next same =>
        cases same
        split at h
        · cases h
          exact built.object List.nodup_nil (by simp)
        · obtain ⟨⟨read, after⟩, readOk, h⟩ := bind_eq_ok h
          cases h
          exact built.object (collect_nodup read) fun field mem =>
            fields _ _ _ readOk field (mem_collect mem)
      · next same =>
        cases same
        split at h
        · cases h
          exact built.array (by simp)
        · obtain ⟨⟨read, after⟩, readOk, h⟩ := bind_eq_ok h
          cases h
          exact built.array (items _ _ _ readOk)
      · exact readScalar_built built h
    · rw [readItems] at h
      obtain ⟨⟨first, after⟩, firstOk, h⟩ := bind_eq_ok h
      have first := value _ _ _ firstOk
      dsimp only at h
      split at h
      · cases h
        simpa using first
      · obtain ⟨⟨others, last⟩, othersOk, h⟩ := bind_eq_ok h
        cases h
        exact List.forall_mem_cons.mpr ⟨first, items _ _ _ othersOk⟩
      · cases h
    · rw [readFields.eq_def] at h
      split at h
      · cases h
      · next same =>
        cases same
        obtain ⟨⟨name, after⟩, -, h⟩ := bind_eq_ok h
        dsimp only at h
        split at h
        · obtain ⟨⟨first, afterValue⟩, firstOk, h⟩ := bind_eq_ok h
          have first := value _ _ _ firstOk
          dsimp only at h
          split at h
          · cases h
            simpa using first
          · obtain ⟨⟨others, last⟩, othersOk, h⟩ := bind_eq_ok h
            cases h
            exact List.forall_mem_cons.mpr ⟨first, fields _ _ _ othersOk⟩
          · cases h
        · cases h
      · cases h

theorem read_built {text : List Char} {document : Json}
    (h : read acceptSpecial text = .ok document) : holds document := by
  unfold read at h
  split at h
  · next readOk =>
    cases h
    unfold readDocument at readOk
    dsimp only at readOk
    split at readOk
    · cases readOk
    · obtain ⟨⟨found, rest⟩, valueOk, readOk⟩ := bind_eq_ok readOk
      dsimp only at readOk
      split at readOk
      · cases readOk
        exact (readParts_built built _).1 _ _ _ valueOk
      · cases readOk
  · cases h

end

/-! ## Containers that are written -/

theorem unwritableItem?_eq_none {finiteOnly : Bool} {items : List Json} :
    unwritableItem? finiteOnly items = none ↔
      ∀ item ∈ items, unwritable? finiteOnly item = none := by
  induction items with
  | nil => simp [unwritableItem?]
  | cons item items ih => simp [unwritableItem?, ih]

theorem unwritableField?_eq_none {finiteOnly : Bool} {fields : Fields} :
    unwritableField? finiteOnly fields = none ↔
      ∀ field ∈ fields, unwritable? finiteOnly field.2 = none := by
  induction fields with
  | nil => simp [unwritableField?]
  | cons field fields ih =>
    obtain ⟨name, value⟩ := field
    rw [unwritableField?, Option.or_eq_none_iff, ih, List.forall_mem_cons, unwritableValue?]

end Json
end DesignSystem
