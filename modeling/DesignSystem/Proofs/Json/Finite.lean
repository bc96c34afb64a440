import DesignSystem.Proofs.Json.Parts

/-! # What documents pass on to their parts

* `Json.Hereditary`: the properties that documents pass on to their parts.
* `Json.Finite`: documents without infinities and NaN, whatever the length of their integers.
* `Json.Cumulative`, `Json.Compositional`: the properties that documents take over from their parts
  as well.
* `Json.unwritable?_eq_none_iff`: among the documents with short integers they are the ones that are
  written where only finite numbers are asked for.
-/

namespace DesignSystem
set_option autoImplicit false

namespace Json

/-! ## Hereditary properties -/

/-- A property that documents pass on to their parts. -/
structure Inherited (holds : Json → Prop) : Prop where
  item : ∀ {items}, holds (.array items) → ∀ item ∈ items, holds item
  field : ∀ {fields : Fields}, holds (.object fields) → ∀ field ∈ fields, holds field.2

/-- Such a property that texts and the empty object have. -/
structure Hereditary (holds : Json → Prop) : Prop extends Inherited holds where
  text : ∀ text, holds (.string text)
  empty : holds (.object [])

theorem Inherited.get? {holds : Json → Prop} (inherited : Inherited holds) {fields : Fields}
    {name : String} {part : Json} (h : holds (.object fields))
    (found : fields.get? name = some part) : holds part :=
  inherited.field h _ (mem_of_lookup found)

theorem distinct_hereditary : Hereditary Distinct where
  text := .string
  empty := .object [] List.nodup_nil (by simp)
  item := Distinct.item
  field := Distinct.entry

/-! ## Finite documents -/

/-- A document all of whose numbers have digits. -/
inductive Finite : Json → Prop where
  | null : Finite null
  | bool (value : Bool) : Finite (bool value)
  | int (value : Int) : Finite (number (.int value))
  | float (value : Binary64) (finite : value.isFinite = true) : Finite (number (.float value))
  | string (value : Text) : Finite (string value)
  | array (items : List Json) (each : ∀ item ∈ items, Finite item) : Finite (array items)
  | object (fields : Fields) (each : ∀ field ∈ fields, Finite field.2) : Finite (object fields)

theorem finite_float {x : Binary64} : (number (.float x)).Finite ↔ x.isFinite = true :=
  ⟨fun h => by cases h with | float _ finite => exact finite, .float x⟩

theorem finite_array {items : List Json} : (array items).Finite ↔ ∀ item ∈ items, item.Finite :=
  ⟨fun h => by cases h with | array _ each => exact each, .array items⟩

theorem finite_object {fields : Fields} :
    (object fields).Finite ↔ ∀ field ∈ fields, field.2.Finite :=
  ⟨fun h => by cases h with | object _ each => exact each, .object fields⟩

theorem finite_hereditary : Hereditary Finite where
  text := .string
  empty := .object [] (by simp)
  item := finite_array.mp
  field := finite_object.mp

/-- A document is written with finite numbers alone iff its numbers are finite and it is written
at all. -/
theorem unwritable?_eq_none_iff {document : Json} :
    document.unwritable? true = none ↔ document.unwritable? false = none ∧ document.Finite := by
  induction document using Json.induction with
  | null => simp [unwritable?, Finite.null]
  | bool value => simp [unwritable?, Finite.bool]
  | number n =>
    cases n with
    | int n => simp [unwritable?, unwritableNumber?, Finite.int]
    | float x => simp [unwritable?, unwritableNumber?, finite_float]
  | string text => simp [unwritable?, Finite.string]
  | array items ih =>
    simp only [unwritable?, unwritableItem?_eq_none, finite_array]
    exact ⟨fun h => ⟨fun i mem => ((ih i mem).mp (h i mem)).1,
      fun i mem => ((ih i mem).mp (h i mem)).2⟩,
      fun h i mem => (ih i mem).mpr ⟨h.1 i mem, h.2 i mem⟩⟩
  | object fields ih =>
    simp only [unwritable?, unwritableField?_eq_none, finite_object]
    exact ⟨fun h => ⟨fun f mem => ((ih f mem).mp (h f mem)).1,
      fun f mem => ((ih f mem).mp (h f mem)).2⟩,
      fun h f mem => (ih f mem).mpr ⟨h.1 f mem, h.2 f mem⟩⟩

theorem writable_hereditary (finiteOnly : Bool) :
    Hereditary fun document => document.unwritable? finiteOnly = none where
  text _ := rfl
  empty := rfl
  item h := by rwa [unwritable?, unwritableItem?_eq_none] at h
  field h := by rwa [unwritable?, unwritableField?_eq_none] at h

/-! ## Compositional properties -/

/-- A hereditary property that containers take over from their parts. -/
structure Cumulative (holds : Json → Prop) : Prop extends Hereditary holds where
  array : ∀ {items}, (∀ item ∈ items, holds item) → holds (.array items)
  object : ∀ {fields : Fields}, (fields.map Prod.fst).Nodup → (∀ field ∈ fields, holds field.2) →
    holds (.object fields)

/-- A cumulative property that finite scalars have. -/
structure Compositional (holds : Json → Prop) : Prop extends Cumulative holds where
  null : holds .null
  bool : ∀ value, holds (.bool value)
  int : ∀ value, holds (.int value)
  float : ∀ value : Binary64, value.isFinite = true → holds (.number (.float value))

theorem distinct_compositional : Compositional Distinct where
  toHereditary := distinct_hereditary
  null := .null
  bool := .bool
  int _ := .number _
  float _ _ := .number _
  array := .array _
  object := .object _

theorem finite_compositional : Compositional Finite where
  toHereditary := finite_hereditary
  null := .null
  bool := .bool
  int := .int
  float := .float
  array := .array _
  object _ := .object _

/-- A finite document with distinct names has every compositional property. -/
theorem Compositional.of_finite {holds : Json → Prop} (compositional : Compositional holds)
    {document : Json} (distinct : document.Distinct) (finite : document.Finite) :
    holds document := by
  induction finite with
  | null => exact compositional.null
  | bool value => exact compositional.bool value
  | int value => exact compositional.int value
  | float value finite => exact compositional.float value finite
  | string value => exact compositional.text value
  | array items _ ih => exact compositional.array fun i mem => ih i mem (distinct.item i mem)
  | object fields _ ih =>
    exact compositional.object distinct.names fun f mem => ih f mem (distinct.entry f mem)

end Json
end DesignSystem
