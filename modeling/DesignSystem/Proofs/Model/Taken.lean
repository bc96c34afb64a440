import DesignSystem.Model.Tokens
import DesignSystem.Proofs.Check.Shape
import DesignSystem.Proofs.Json.Parts
import Mathlib.Data.List.Forall2

/-! # What decoding takes

A part of a model takes every document of a shape if it decodes each of them, and it keeps of the
document what a relation between values and documents says.

* `Decoded.Takes`: a part of a model takes the documents of a shape.
* `Decoded.Takes.array`, `Decoded.Takes.dict`: items and entries are taken one by one.
* `Decoded.Takes.required`, `Decoded.Takes.optional`, …: the fields of a model, each under the first
  of its names.
-/

namespace DesignSystem
set_option autoImplicit false

/-! ## Other names of a field -/

/-- The field is absent under its name in documents, and there under another name. -/
def Fields.StandsIn (fields : Fields) (other name : String) : Prop :=
  fields.has name = false ∧ fields.has other = true

theorem Fields.Only.not_standsIn {fields : Fields} {names : List String} (only : fields.Only names)
    {other : String} (unknown : other ∉ names) (name : String) : ¬ fields.StandsIn other name := by
  rintro ⟨-, there⟩
  obtain ⟨part, found⟩ := Fields.has_iff_get?.mp there
  rw [only.get?_eq_none unknown] at found
  cases found

namespace Decoded
variable {α : Type}

/-- The part decodes every document of a shape; `keeps` holds of its value and the document. -/
def Takes (part : Pointer → Json → Decoded α) (shape : Json → Prop) (keeps : α → Json → Prop) :
    Prop :=
  ∀ pointer document, document.Distinct → shape document →
    ∃ value, part pointer document = .ok value ∧ keeps value document

variable {part : Pointer → Json → Decoded α} {shape : Json → Prop} {keeps : α → Json → Prop}

/-! ## Scalars -/

theorem string_takes :
    Takes string Json.IsText fun value document => .string value = document := by
  rintro pointer _ - ⟨text, rfl⟩
  exact ⟨text, rfl, rfl⟩

theorem boolean_takes :
    Takes boolean Json.IsTruth fun value document => .bool value = document := by
  rintro pointer _ - ⟨value, rfl⟩
  exact ⟨value, rfl, rfl⟩

theorem number_takes : Takes number (fun document => ∃ n : Number, document = .number n)
    fun value document => .number value = document := by
  rintro pointer _ - ⟨n, rfl⟩
  exact ⟨n, rfl, rfl⟩

theorem member_takes (α : Type) [Vocabulary α] :
    Takes (member α) (Json.IsWord α) fun value document => Encoded.word value = document := by
  rintro pointer _ - ⟨value, mem, rfl⟩
  have there : (Vocabulary.member? (Vocabulary.word value) : Option α).isSome = true :=
    List.find?_isSome.mpr ⟨value, mem, beq_self_eq_true _⟩
  obtain ⟨other, found⟩ := Option.isSome_iff_exists.mp there
  have same : Vocabulary.word other = Vocabulary.word value := by
    simpa using List.find?_some found
  exact ⟨other, by simp [member, found], congrArg Json.ofString same⟩

theorem anyObject_takes : Takes anyObject (Json.IsObject fun _ => True)
    fun fields document => document = .object fields := by
  rintro pointer _ - ⟨fields, rfl, -⟩
  exact ⟨fields, rfl, rfl⟩

/-! ## Containers -/

theorem all_eq_ok {ι : Type} {decode : ι → Decoded α} {keeps : α → ι → Prop} {items : List ι}
    (each : ∀ item ∈ items, ∃ value, decode item = .ok value ∧ keeps value item) :
    ∃ values, all (items.map decode) = .ok values ∧ List.Forall₂ keeps values items := by
  induction items with
  | nil => exact ⟨[], rfl, .nil⟩
  | cons item items ih =>
    rw [List.forall_mem_cons] at each
    obtain ⟨value, decoded, kept⟩ := each.1
    obtain ⟨values, rest, keptRest⟩ := ih each.2
    exact ⟨value :: values, by rw [List.map_cons, all, decoded, rest]; rfl, .cons kept keptRest⟩

theorem Takes.array (taken : Takes part shape keeps) :
    Takes (Decoded.array part) (Json.IsArray shape) fun values document =>
      ∃ items, document = .array items ∧ List.Forall₂ keeps values items := by
  rintro pointer _ distinct ⟨items, rfl, fits⟩
  have each : ∀ placed ∈ items.zipIdx, ∃ value,
      part (pointer ++ [.index placed.2]) placed.1 = .ok value ∧ keeps value placed.1 := by
    intro placed mem
    have mem := List.fst_mem_of_mem_zipIdx mem
    exact taken _ placed.1 (distinct.item _ mem) (fits _ mem)
  obtain ⟨values, decoded, kept⟩ := all_eq_ok each
  refine ⟨values, decoded, items, rfl, ?_⟩
  rwa [← List.forall₂_map_right_iff, List.zipIdx_map_fst] at kept

theorem Takes.dict (taken : Takes part shape keeps) :
    Takes (Decoded.dict part) (Json.IsObject (Fields.Each · shape)) fun values document =>
      ∃ fields, document = .object fields ∧ List.Forall₂ (fun entry field =>
        entry.1 = field.1 ∧ keeps entry.2 field.2) values.entries fields := by
  rintro pointer _ distinct ⟨fields, rfl, fits⟩
  have each : ∀ field ∈ fields, ∃ entry : String × α,
      (part (pointer ++ [.field field.1]) field.2).map (field.1, ·) = .ok entry ∧
        entry.1 = field.1 ∧ keeps entry.2 field.2 := by
    intro field mem
    obtain ⟨value, decoded, kept⟩ :=
      taken (pointer ++ [.field field.1]) field.2 (distinct.entry _ mem) (fits _ mem)
    exact ⟨(field.1, value), by rw [decoded]; rfl, rfl, kept⟩
  obtain ⟨entries, decoded, kept⟩ := all_eq_ok each
  -- entries under distinct names stay as they are when they are collected
  have same : entries.map Prod.fst = fields.map Prod.fst := by
    rw [← List.forall₂_eq_eq_eq, List.forall₂_map_left_iff, List.forall₂_map_right_iff]
    exact kept.imp fun _ _ h => h.1
  refine ⟨Dict.ofList entries, by rw [Decoded.dict, decoded]; rfl, fields, rfl, ?_⟩
  change List.Forall₂ _ (collect entries) fields
  rwa [collect_eq_self (same ▸ distinct.names)]

/-! ## Fields -/

variable {fields : Fields} {name : String} {others : List String}

theorem find?_of_get? {document : Json} (found : fields.get? name = some document) :
    find? (name :: others) fields = some (name, document) := by
  simp [find?, found]

theorem Takes.present (taken : Takes part shape keeps)
    (distinct : (Json.object fields).Distinct) (has : fields.Has name shape) (pointer : Pointer) :
    ∃ document value, fields.get? name = some document ∧
      part (pointer ++ [.field name]) document = .ok value ∧ keeps value document := by
  obtain ⟨document, found, fits⟩ := has
  obtain ⟨value, decoded, kept⟩ := taken (pointer ++ [.field name]) document
    (distinct.field found) fits
  exact ⟨document, value, found, decoded, kept⟩

theorem find?_alone (absent : fields.get? name = none)
    (alone : ∀ other ∈ others, ¬ fields.StandsIn other name) :
    find? (name :: others) fields = none := by
  have absentToo : ∀ other ∈ others, fields.get? other = none := by
    intro other mem
    cases found : fields.get? other with
    | none => rfl
    | some part =>
      exact absurd ⟨by simp [Fields.has, absent], by simp [Fields.has, found]⟩ (alone other mem)
  simpa [find?, absent] using absentToo

theorem Takes.required (taken : Takes part shape keeps)
    (distinct : (Json.object fields).Distinct) (has : fields.Has name shape)
    (others : List String) (pointer : Pointer) :
    ∃ value, Decoded.required (name :: others) part pointer fields = .ok value ∧
      ∃ document, fields.get? name = some document ∧ keeps value document := by
  obtain ⟨document, value, found, decoded, kept⟩ := taken.present distinct has pointer
  exact ⟨value, by simpa [Decoded.required, find?_of_get? found] using decoded, document, found,
    kept⟩

theorem Takes.defaulted (taken : Takes part shape keeps)
    (distinct : (Json.object fields).Distinct) (has : fields.Has name shape)
    (others : List String) (default : α) (pointer : Pointer) :
    ∃ value, Decoded.defaulted (name :: others) default part pointer fields = .ok value ∧
      ∃ document, fields.get? name = some document ∧ keeps value document := by
  obtain ⟨document, value, found, decoded, kept⟩ := taken.present distinct has pointer
  exact ⟨value, by simpa [Decoded.defaulted, find?_of_get? found] using decoded, document, found,
    kept⟩

/-- A field that may be absent is taken if no other of its names stands in for it. -/
theorem Takes.optional (taken : Takes part shape keeps) (notNull : ¬ shape .null)
    (distinct : (Json.object fields).Distinct) (may : fields.May name shape) (others : List String)
    (alone : ∀ other ∈ others, ¬ fields.StandsIn other name) (pointer : Pointer) :
    ∃ value, Decoded.optional (name :: others) part pointer fields = .ok value ∧
      Option.Rel keeps value (fields.get? name) := by
  cases found : fields.get? name with
  | none => exact ⟨none, by simp [Decoded.optional, find?_alone found alone], .none⟩
  | some document =>
    have fits := may document found
    obtain ⟨value, decoded, kept⟩ := taken (pointer ++ [.field name]) document
      (distinct.field found) fits
    have present : document ≠ .null := fun null => notNull (null ▸ fits)
    refine ⟨some value, ?_, .some kept⟩
    simp [Decoded.optional, find?_of_get? found, decoded, Decoded.map]

theorem Takes.lone (taken : Takes part shape keeps) (notNull : ¬ shape .null)
    (distinct : (Json.object fields).Distinct) (may : fields.May name shape) (pointer : Pointer) :
    ∃ value, Decoded.optional [name] part pointer fields = .ok value ∧
      Option.Rel keeps value (fields.get? name) :=
  taken.optional notNull distinct may [] (by simp) pointer

/-- Closed documents have their schema and version under the names that their shape lists. -/
theorem schemaAndVersion_taken {names : List String} (distinct : (Json.object fields).Distinct)
    (only : fields.Only names) (others : "schema_uri" ∉ names ∧ "version" ∉ names)
    (maySchema : fields.May "$schema" Json.IsText)
    (mayVersion : fields.May "$version" Json.IsText) (pointer : Pointer) :
    ∃ schema version, Decoded.optional schemaNames string pointer fields = .ok schema ∧
      Decoded.optional versionNames string pointer fields = .ok version ∧
      Option.Rel (fun text document => .string text = document) schema (fields.get? "$schema") ∧
      Option.Rel (fun text document => .string text = document) version
        (fields.get? "$version") := by
  obtain ⟨schema, decodedSchema, keptSchema⟩ := string_takes.optional (by simp [Json.IsText])
    distinct maySchema ["schema_uri"] (by simp [only.not_standsIn others.1]) pointer
  obtain ⟨version, decodedVersion, keptVersion⟩ := string_takes.optional (by simp [Json.IsText])
    distinct mayVersion ["version"] (by simp [only.not_standsIn others.2]) pointer
  exact ⟨schema, version, decodedSchema, decodedVersion, keptSchema, keptVersion⟩

end Decoded
end DesignSystem
