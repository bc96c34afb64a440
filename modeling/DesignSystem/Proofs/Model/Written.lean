import DesignSystem.Proofs.Model.Reported

/-! # What contracts are written as

A contract that was decoded is written as a document with finite numbers and, if it was decoded from
one, with distinct names: what it does not declare is written under names that it does not use.

* `Encoded.free_finite`: what a model writes of a free document is finite.
* `Encoded.distinct_of_leaves`: extra fields do not repeat declared ones.
* `ComponentContract.document_finite`, `ComponentContract.document_distinct`: contracts.
-/

namespace DesignSystem
set_option autoImplicit false

open Json

namespace Encoded

/-! ## Free documents -/

theorem freeItems_eq_map (items : List Json) : freeItems items = items.map free := by
  induction items with
  | nil => rfl
  | cons item items ih => rw [freeItems, ih, List.map_cons]

theorem freeFields_eq_map (fields : Fields) :
    freeFields fields = fields.map fun field => (field.1, free field.2) := by
  induction fields with
  | nil => rfl
  | cons field fields ih =>
    obtain ⟨name, value⟩ := field
    rw [freeFields, freeField, ih, List.map_cons]

theorem freeFields_names (fields : Fields) :
    (freeFields fields).map Prod.fst = fields.map Prod.fst := by
  rw [freeFields_eq_map, List.map_map]
  rfl

theorem free_finite (document : Json) : (free document).Finite := by
  induction document using Json.induction with
  | null => exact .null
  | bool value => exact .bool value
  | number n =>
    cases n with
    | int n => exact .int n
    | float x =>
      rw [free]
      split
      · next finite => exact .float x finite
      · exact .null
  | string text => exact .string text
  | array items ih =>
    rw [free, freeItems_eq_map]
    refine .array _ fun item mem => ?_
    obtain ⟨source, listed, rfl⟩ := List.mem_map.mp mem
    exact ih source listed
  | object fields ih =>
    rw [free, freeFields_eq_map]
    refine .object _ fun field mem => ?_
    obtain ⟨source, listed, rfl⟩ := List.mem_map.mp mem
    exact ih source listed

theorem free_distinct {document : Json} (distinct : document.Distinct) :
    (free document).Distinct := by
  induction document using Json.induction with
  | null | bool | string => exact distinct
  | number n =>
    cases n with
    | int n => exact distinct
    | float x =>
      rw [free]
      split
      · exact distinct
      · exact .null
  | array items ih =>
    rw [free, freeItems_eq_map]
    refine .array _ fun item mem => ?_
    obtain ⟨source, listed, rfl⟩ := List.mem_map.mp mem
    exact ih source listed (distinct.item source listed)
  | object fields ih =>
    rw [free]
    refine .object _ (freeFields_names fields ▸ distinct.names) fun field mem => ?_
    rw [freeFields_eq_map] at mem
    obtain ⟨source, listed, rfl⟩ := List.mem_map.mp mem
    exact ih source listed (distinct.entry source listed)

/-! ## Fields of models -/

section
variable {α : Type} {name : String} {encode : α → Json} {value : Option α}

theorem optional_names (name : String) (encode : α → Json) (value : Option α) :
    ((optional name encode value).map Prod.fst).Sublist [name] := by
  cases value <;> simp [optional]

theorem names_cons (field : String × Json) {fields : Fields} {names : List String}
    (sublist : (fields.map Prod.fst).Sublist names) :
    ((field :: fields).map Prod.fst).Sublist (field.1 :: names) :=
  sublist.cons_cons field.1

theorem names_singleton (field : String × Json) : ([field].map Prod.fst).Sublist [field.1] :=
  .refl _

theorem names_append {first second : Fields} {before after : List String}
    (here : (first.map Prod.fst).Sublist before) (there : (second.map Prod.fst).Sublist after) :
    ((first ++ second).map Prod.fst).Sublist (before ++ after) := by
  rw [List.map_append]
  exact here.append there

theorem forall_optional {holds : Json → Prop} :
    (∀ field ∈ optional name encode value, holds field.2) ↔
      ∀ part, value = some part → holds (encode part) := by
  cases value <;> simp [optional]

end

theorem extras_finite (fields : Fields) : ∀ field ∈ extras fields, field.2.Finite := by
  intro field mem
  rw [extras, freeFields_eq_map] at mem
  obtain ⟨source, -, rfl⟩ := List.mem_map.mp mem
  exact free_finite source.2

theorem extras_names (fields : Fields) :
    ((extras fields).map Prod.fst).Sublist (fields.map Prod.fst) := by
  rw [extras, freeFields_names]
  exact List.filter_sublist.map _

theorem extras_distinct {fields : Fields} (each : ∀ field ∈ fields, field.2.Distinct) :
    ∀ field ∈ extras fields, field.2.Distinct := by
  intro field mem
  rw [extras, freeFields_eq_map] at mem
  obtain ⟨source, listed, rfl⟩ := List.mem_map.mp mem
  exact free_distinct (each source (List.mem_of_mem_filter listed))

theorem distinct_of_names (heads : List String) {written : Fields}
    (names : (written.map Prod.fst).Sublist heads) (nodup : heads.Nodup)
    (each : ∀ field ∈ written, field.2.Distinct) : (Json.object written).Distinct :=
  .object _ (names.nodup nodup) each

/-- The first name of a declared field is not among the extra fields: if it is present it is the
one that is taken. -/
theorem not_mem_extras {declared : List (List String)} {name : String} {others : List String}
    (mem : name :: others ∈ declared) (fields : Fields) :
    name ∉ (Decoded.extras declared fields).map Prod.fst := by
  intro extra
  obtain ⟨field, listed, rfl⟩ := List.mem_map.mp extra
  obtain ⟨present, free⟩ := List.mem_filter.mp listed
  have isSome : (Fields.get? fields field.1).isSome = true :=
    (lookup_isSome fields field.1).mpr (List.mem_map_of_mem present)
  obtain ⟨document, found⟩ := Option.isSome_iff_exists.mp isSome
  have taken : field.1 ∈ declared.filterMap fun names =>
      (Decoded.find? names fields).map Prod.fst :=
    List.mem_filterMap.mpr ⟨_, mem, by rw [Decoded.find?_of_get? found]; rfl⟩
  simp [taken] at free

/-- Fields that are written under the first of their names, and the extra ones, have distinct
names. -/
theorem distinct_of_leaves {declared : List (List String)} (heads : List String)
    {written free : Fields} (left : Decoded.Leaves Distinct declared free)
    (names : (written.map Prod.fst).Sublist heads) (nodup : heads.Nodup)
    (first : ∀ head ∈ heads, some head ∈ declared.map List.head?)
    (each : ∀ field ∈ written, field.2.Distinct) :
    (Json.object (written ++ extras free)).Distinct := by
  obtain ⟨fields, distinct, rfl⟩ := left
  have kept : (Decoded.extras declared fields).Sublist fields := List.filter_sublist
  refine .object _ ?_ (List.forall_mem_append.mpr ⟨each,
    extras_distinct fun field mem => distinct.entry field (kept.subset mem)⟩)
  rw [List.map_append]
  refine (names.nodup nodup).append
    (((extras_names _).trans (kept.map _)).nodup distinct.names) fun name here there => ?_
  obtain ⟨_ | ⟨head, others⟩, mem, same⟩ := List.mem_map.mp (first name (names.subset here))
  · cases same
  obtain rfl : head = name := Option.some.inj same
  exact not_mem_extras mem fields ((extras_names _).subset there)

end Encoded

/-! ## Parts of contracts -/

theorem PropDefinition.document_finite (prop : PropDefinition) : prop.document.Finite := by
  simp only [document, finite_object, List.forall_mem_append, List.forall_mem_cons,
    Encoded.forall_optional]
  exact ⟨⟨⟨⟨⟨.string _, fun words _ => .array _ (by simp [Finite.string])⟩,
    fun default _ => Encoded.free_finite default⟩, fun value _ => .bool value⟩,
    fun text _ => .string text⟩, Encoded.extras_finite _⟩

theorem PropDefinition.document_distinct {prop : PropDefinition} (carries : prop.Carries Distinct) :
    prop.document.Distinct := by
  refine Encoded.distinct_of_leaves ["type", "values", "default", "required", "description"]
    carries.extras (Encoded.names_append (Encoded.names_append (Encoded.names_append
      (Encoded.names_cons _ (Encoded.optional_names _ _ _)) (Encoded.optional_names _ _ _))
      (Encoded.optional_names _ _ _)) (Encoded.optional_names _ _ _)) (by decide) (by decide) ?_
  simp only [List.forall_mem_append, List.forall_mem_cons, Encoded.forall_optional]
  exact ⟨⟨⟨⟨.string _, fun words _ => .array _ (by simp [Distinct.string])⟩,
    fun default found => Encoded.free_distinct (carries.default default found)⟩,
    fun value _ => .bool value⟩, fun text _ => .string text⟩

theorem VariantDefinition.document_finite (variant : VariantDefinition) :
    variant.document.Finite := by
  simp only [document, finite_object, List.forall_mem_append, List.forall_mem_cons,
    Encoded.forall_optional]
  exact ⟨⟨⟨.string _, fun text _ => .string text⟩, Encoded.free_finite _, by simp⟩,
    Encoded.extras_finite _⟩

theorem VariantDefinition.document_distinct {variant : VariantDefinition}
    (carries : variant.Carries Distinct) : variant.document.Distinct := by
  refine Encoded.distinct_of_leaves ["name", "description", "props"] carries.extras
    (Encoded.names_append (Encoded.names_cons _ (Encoded.optional_names _ _ _))
      (Encoded.names_singleton _)) (by decide) (by decide) ?_
  simp only [List.forall_mem_append, List.forall_mem_cons, Encoded.forall_optional]
  exact ⟨⟨.string _, fun text _ => .string text⟩, Encoded.free_distinct carries.props, by simp⟩

theorem StateDefinition.document_finite (state : StateDefinition) : state.document.Finite := by
  simp only [document, finite_object, List.forall_mem_append, List.forall_mem_cons,
    Encoded.forall_optional]
  exact ⟨⟨.string _, fun text _ => .string text⟩, Encoded.extras_finite _⟩

theorem StateDefinition.document_distinct {state : StateDefinition}
    (left : Decoded.Leaves Distinct declared state.extras) : state.document.Distinct := by
  refine Encoded.distinct_of_leaves ["name", "description"] left
    (Encoded.names_cons _ (Encoded.optional_names _ _ _)) (by decide) (by decide) ?_
  simp only [List.forall_mem_cons, Encoded.forall_optional]
  exact ⟨.string _, fun text _ => .string text⟩

theorem CodeReference.document_finite (code : CodeReference) : code.document.Finite := by
  simp only [document, finite_object, List.forall_mem_append, List.forall_mem_cons,
    Encoded.forall_optional]
  exact ⟨⟨.string _, fun text _ => .string text⟩, Encoded.extras_finite _⟩

theorem CodeReference.document_distinct {code : CodeReference}
    (left : Decoded.Leaves Distinct declared code.extras) : code.document.Distinct := by
  refine Encoded.distinct_of_leaves ["importPath", "exportName"] left
    (Encoded.names_cons _ (Encoded.optional_names _ _ _)) (by decide) (by decide) ?_
  simp only [List.forall_mem_cons, Encoded.forall_optional]
  exact ⟨.string _, fun text _ => .string text⟩

theorem ComponentExample.document_finite (e : ComponentExample) : e.document.Finite := by
  simp only [document, finite_object, List.forall_mem_append, List.forall_mem_cons,
    Encoded.forall_optional]
  exact ⟨⟨⟨fun text _ => .string text, fun text _ => .string text⟩, Encoded.free_finite _, by simp⟩,
    Encoded.extras_finite _⟩

theorem ComponentExample.document_distinct {e : ComponentExample} (carries : e.Carries Distinct) :
    e.document.Distinct := by
  refine Encoded.distinct_of_leaves ["name", "description", "props"] carries.extras
    (Encoded.names_append (Encoded.names_append (Encoded.optional_names _ _ _)
      (Encoded.optional_names _ _ _)) (Encoded.names_singleton _)) (by decide) (by decide) ?_
  simp only [List.forall_mem_append, List.forall_mem_cons, Encoded.forall_optional]
  exact ⟨⟨fun text _ => .string text, fun text _ => .string text⟩,
    Encoded.free_distinct carries.props, by simp⟩

/-! ## Contracts -/

namespace ComponentContract

section
variable {α : Type} {encode : α → Json} {holds : Json → Prop}
  (array : ∀ items, (∀ item ∈ items, holds item) → holds (.array items))

include array

theorem holds_arrayOf {parts : List α} (each : ∀ part ∈ parts, holds (encode part)) :
    holds (arrayOf encode parts) := by
  refine array _ fun item mem => ?_
  obtain ⟨part, listed, rfl⟩ := List.mem_map.mp mem
  exact each part listed

theorem forall_arrayOf {parts : Option (List α)}
    (each : ∀ part ∈ parts.getD [], holds (encode part)) :
    ∀ found, parts = some found → holds (arrayOf encode found) := by
  rintro found rfl
  exact holds_arrayOf array each

end

theorem document_finite (contract : ComponentContract) : contract.document.Finite := by
  simp only [document, finite_object, List.forall_mem_append, List.forall_mem_cons,
    Encoded.forall_optional]
  have targets : (arrayOf Encoded.word contract.platformTargets).Finite :=
    holds_arrayOf .array fun _ _ => .string _
  have props : (Encoded.dict PropDefinition.document contract.props).Finite := by
    refine .object _ fun field mem => ?_
    obtain ⟨entry, -, rfl⟩ := List.mem_map.mp mem
    exact entry.2.document_finite
  exact ⟨⟨⟨⟨⟨⟨⟨⟨fun text _ => .string text, fun text _ => .string text⟩, .string _, by simp⟩,
    fun text _ => .string text⟩, targets, props, by simp⟩,
    forall_arrayOf .array fun variant _ => variant.document_finite⟩,
    forall_arrayOf .array fun state _ => state.document_finite⟩,
    fun code _ => code.document_finite⟩,
    forall_arrayOf .array fun e _ => e.document_finite⟩

theorem document_distinct {contract : ComponentContract} (carries : contract.Carries Distinct) :
    contract.document.Distinct := by
  refine Encoded.distinct_of_names ["$schema", "$version", "name", "description",
    "platformTargets", "props", "variants", "states", "code", "examples"]
    (Encoded.names_append (Encoded.names_append (Encoded.names_append (Encoded.names_append
      (Encoded.names_append (Encoded.names_append (Encoded.names_append (Encoded.names_append
      (Encoded.optional_names _ _ _) (Encoded.optional_names _ _ _)) (Encoded.names_singleton _))
      (Encoded.optional_names _ _ _)) (Encoded.names_cons _ (Encoded.names_singleton _)))
      (Encoded.optional_names _ _ _)) (Encoded.optional_names _ _ _))
      (Encoded.optional_names _ _ _)) (Encoded.optional_names _ _ _)) (by decide) ?_
  simp only [List.forall_mem_append, List.forall_mem_cons, Encoded.forall_optional]
  have targets : (arrayOf Encoded.word contract.platformTargets).Distinct :=
    holds_arrayOf .array fun _ _ => .string _
  have props : (Encoded.dict PropDefinition.document contract.props).Distinct := by
    refine .object _ ?_ fun field mem => ?_
    · rw [List.map_map]
      exact contract.props.distinct
    · obtain ⟨entry, listed, rfl⟩ := List.mem_map.mp mem
      exact PropDefinition.document_distinct (carries.props entry listed)
  exact ⟨⟨⟨⟨⟨⟨⟨⟨fun text _ => .string text, fun text _ => .string text⟩, .string _, by simp⟩,
    fun text _ => .string text⟩, targets, props, by simp⟩,
    forall_arrayOf .array fun variant mem => VariantDefinition.document_distinct
      (carries.variants variant mem)⟩,
    forall_arrayOf .array fun state mem => StateDefinition.document_distinct
      (carries.states state mem)⟩,
    fun code found => CodeReference.document_distinct (carries.code code found)⟩,
    forall_arrayOf .array fun e mem => ComponentExample.document_distinct
      (carries.examples e mem)⟩

end ComponentContract
end DesignSystem
