import DesignSystem.Proofs.Check.TokenShape
import DesignSystem.Proofs.Model.Contract

/-! # Checks and models agree

* `CoreTokens.arranged`, `SemanticTokens.arranged`, `PlatformRules.arranged`: a document with its
  declared fields only, in the order of the model, and with their values as they are.
* `PlatformRules.UsesFieldName`, …: a field is absent under its name in documents, and there under
  the other name that the model takes.
* `Schema.decode_of_accepts`: documents without such fields that their check accepts are decoded; of
  token layers the model is then the arranged document.
-/

namespace DesignSystem
set_option autoImplicit false

/-! ## Documents in order -/

/-- The fields that a layout lists, in its order, each part changed as the layout says. -/
def Fields.arranged (layout : List (String × (Json → Json))) (fields : Fields) : Fields :=
  layout.flatMap fun field =>
    ((fields.get? field.1).map fun part => (field.1, field.2 part)).toList

namespace Json

def arranged (layout : List (String × (Json → Json))) : Json → Json
  | object fields => object (Fields.arranged layout fields)
  | document => document

/-- A container with each of its parts changed. -/
def mapParts (change : Json → Json) : Json → Json
  | array items => array (items.map change)
  | object fields => object (fields.map fun field => (field.1, change field.2))
  | document => document

end Json

def CoreTokens.arranged : Json → Json :=
  Json.arranged [("$schema", id), ("$version", id),
    ("tokens", Json.mapParts
      (Json.arranged [("value", id), ("category", id), ("description", id)]))]

def SemanticTokens.arranged : Json → Json :=
  Json.arranged [("$schema", id), ("$version", id), ("$theme", id),
    ("tokens", Json.mapParts (Json.arranged [("ref", id), ("description", id)]))]

def PlatformRules.arranged : Json → Json :=
  Json.arranged [("$schema", id), ("$version", id), ("$platform", id),
    ("rules", Json.mapParts
      (Json.arranged [("category", id), ("transform", id), ("remBase", id)]))]

/-! ## Encoded parts -/

theorem Encoded.optional_eq {α : Type} {encode : α → Json} {view : Json → Json} {value : Option α}
    {part : Option Json}
    (kept : Option.Rel (fun value document => encode value = view document) value part)
    (name : String) :
    Encoded.optional name encode value = (part.map fun part => (name, view part)).toList := by
  cases kept with
  | none => rfl
  | some same => simp [Encoded.optional, same]

theorem Encoded.dict_eq {α : Type} {encode : α → Json} {view : Json → Json} {values : Dict α}
    {fields : Fields} (kept : List.Forall₂ (fun entry field =>
      entry.1 = field.1 ∧ encode entry.2 = view field.2) values.entries fields) :
    Encoded.dict encode values = (Json.object fields).mapParts view := by
  have same : values.entries.map (fun entry => (entry.1, encode entry.2)) =
      fields.map fun field => (field.1, view field.2) := by
    rw [← List.forall₂_eq_eq_eq, List.forall₂_map_left_iff, List.forall₂_map_right_iff]
    exact kept.imp fun _ _ h => Prod.ext h.1 h.2
  rw [Encoded.dict, same, Json.mapParts]

theorem Encoded.array_eq {α : Type} {encode : α → Json} {view : Json → Json} {values : List α}
    {items : List Json}
    (kept : List.Forall₂ (fun value item => encode value = view item) values items) :
    Json.array (values.map encode) = (Json.array items).mapParts view := by
  have same : values.map encode = items.map view := by
    rw [← List.forall₂_eq_eq_eq, List.forall₂_map_left_iff, List.forall₂_map_right_iff]
    exact kept
  rw [same, Json.mapParts]

/-! ## Core tokens -/

theorem TokenValue.decode_takes :
    Decoded.Takes TokenValue.decode (fun part => part.IsText ∨ part.IsFiniteNumber)
      fun value document => value.document = document := by
  rintro pointer _ - (⟨text, rfl⟩ | ⟨n, rfl, -⟩)
  · exact ⟨.text text, rfl, rfl⟩
  · exact ⟨.number n, rfl, rfl⟩

theorem CoreToken.decode_takes : Decoded.Takes CoreToken.decode (Json.IsObject Shape.CoreToken)
    fun token document => token.document =
      document.arranged [("value", id), ("category", id), ("description", id)] := by
  rintro pointer _ distinct ⟨fields, rfl, shape⟩
  obtain ⟨value, decodedValue, _, found, rfl⟩ :=
    TokenValue.decode_takes.required distinct shape.value [] pointer
  obtain ⟨category, decodedCategory, keptCategory⟩ := (Decoded.member_takes Category).lone
    (by simp [Json.IsWord]) distinct shape.category pointer
  obtain ⟨description, decodedDescription, keptDescription⟩ := Decoded.string_takes.lone
    (by simp [Json.IsText]) distinct shape.description pointer
  refine ⟨⟨value, category, description⟩, ?_, ?_⟩
  · rw [decode, Decoded.model, decodedValue, decodedCategory, decodedDescription]
    rfl
  · simp [document, Encoded.optional_eq keptCategory, Encoded.optional_eq keptDescription,
      Json.arranged, Fields.arranged, found]

theorem CoreTokens.decode_of_shape {document : Json} (distinct : document.Distinct)
    (fits : document.IsObject Shape.CoreTokens) :
    ∃ model, CoreTokens.decode document = .ok model ∧
      model.document = CoreTokens.arranged document := by
  obtain ⟨fields, rfl, shape⟩ := fits
  obtain ⟨schema, version, decodedSchema, decodedVersion, keptSchema, keptVersion⟩ :=
    Decoded.schemaAndVersion_taken distinct shape.only (by simp) shape.schema shape.version []
  obtain ⟨tokens, decodedTokens, _, found, _, rfl, kept⟩ :=
    CoreToken.decode_takes.dict.defaulted distinct shape.tokens [] .empty []
  refine ⟨⟨schema, version, tokens⟩, ?_, ?_⟩
  · rw [decode, Decoded.model, decodedSchema, decodedVersion, decodedTokens]
    rfl
  · simp [CoreTokens.document, Encoded.optional_eq keptSchema, Encoded.optional_eq keptVersion,
      Encoded.dict_eq kept, arranged, Json.arranged, Fields.arranged, found]

/-! ## Semantic tokens -/

theorem SemanticToken.decode_takes :
    Decoded.Takes SemanticToken.decode (Json.IsObject Shape.SemanticToken)
      fun token document => token.document =
        document.arranged [("ref", id), ("description", id)] := by
  rintro pointer _ distinct ⟨fields, rfl, shape⟩
  obtain ⟨ref, decodedRef, _, found, rfl⟩ :=
    Decoded.string_takes.required distinct shape.ref [] pointer
  obtain ⟨description, decodedDescription, keptDescription⟩ := Decoded.string_takes.lone
    (by simp [Json.IsText]) distinct shape.description pointer
  refine ⟨⟨ref, description⟩, ?_, ?_⟩
  · rw [decode, Decoded.model, decodedRef, decodedDescription]
    rfl
  · simp [document, Encoded.optional_eq keptDescription, Json.arranged, Fields.arranged, found]

theorem SemanticTokens.decode_of_shape {document : Json} (distinct : document.Distinct)
    (fits : document.IsObject Shape.SemanticTokens) :
    ∃ model, SemanticTokens.decode document = .ok model ∧
      model.document = SemanticTokens.arranged document := by
  obtain ⟨fields, rfl, shape⟩ := fits
  obtain ⟨schema, version, decodedSchema, decodedVersion, keptSchema, keptVersion⟩ :=
    Decoded.schemaAndVersion_taken distinct shape.only (by simp) shape.schema shape.version []
  obtain ⟨theme, decodedTheme, _, foundTheme, rfl⟩ :=
    (Decoded.member_takes Theme).required distinct shape.theme ["theme"] []
  obtain ⟨tokens, decodedTokens, _, found, _, rfl, kept⟩ :=
    SemanticToken.decode_takes.dict.defaulted distinct shape.tokens [] .empty []
  refine ⟨⟨schema, version, theme, tokens⟩, ?_, ?_⟩
  · rw [decode, Decoded.model, decodedSchema, decodedVersion, decodedTheme, decodedTokens]
    rfl
  · simp [SemanticTokens.document, Encoded.optional_eq keptSchema, Encoded.optional_eq keptVersion,
      Encoded.dict_eq kept, arranged, Json.arranged, Fields.arranged, found, foundTheme]

/-! ## Platform rules -/

theorem PlatformRule.decode_takes : Decoded.Takes PlatformRule.decode
    (Json.IsObject fun rule => Shape.PlatformRule rule ∧ ¬ rule.StandsIn "rem_base" "remBase")
    fun rule document => rule.document =
      document.arranged [("category", id), ("transform", id), ("remBase", id)] := by
  rintro pointer _ distinct ⟨fields, rfl, shape, alone⟩
  obtain ⟨category, decodedCategory, _, foundCategory, rfl⟩ :=
    Decoded.string_takes.required distinct shape.category [] pointer
  obtain ⟨transform, decodedTransform, _, foundTransform, rfl⟩ :=
    (Decoded.member_takes Transform).required distinct shape.transform [] pointer
  obtain ⟨remBase, decodedBase, keptBase⟩ := Decoded.number_takes.optional (by simp) distinct
    (fun part found => (shape.remBase part found).imp fun _ base => base.1) ["rem_base"]
    (by simpa using alone) pointer
  refine ⟨⟨category, transform, remBase⟩, ?_, ?_⟩
  · rw [decode, Decoded.model, decodedCategory, decodedTransform, decodedBase]
    rfl
  · simp [document, Encoded.optional_eq keptBase, Json.arranged, Fields.arranged, foundCategory,
      foundTransform]

/-- A rule has its rem base under another name. -/
def PlatformRules.UsesFieldName (document : Json) : Prop :=
  ∃ (fields : Fields) (rules : List Json) (rule : Fields),
    document = .object fields ∧ fields.get? "rules" = some (.array rules) ∧
      .object rule ∈ rules ∧ rule.StandsIn "rem_base" "remBase"

theorem PlatformRules.decode_of_shape {document : Json} (distinct : document.Distinct)
    (fits : document.IsObject Shape.PlatformRules)
    (alone : ¬ PlatformRules.UsesFieldName document) :
    ∃ model, PlatformRules.decode document = .ok model ∧
      model.document = PlatformRules.arranged document := by
  obtain ⟨fields, rfl, shape⟩ := fits
  obtain ⟨schema, version, decodedSchema, decodedVersion, keptSchema, keptVersion⟩ :=
    Decoded.schemaAndVersion_taken distinct shape.only (by simp) shape.schema shape.version []
  obtain ⟨platform, decodedPlatform, _, foundPlatform, rfl⟩ :=
    (Decoded.member_takes Platform).required distinct shape.platform ["platform"] []
  obtain ⟨_, foundRules, rules, rfl, each⟩ := shape.rules
  have ruleShapes : Fields.Has fields "rules" (Json.IsArray (Json.IsObject fun rule =>
      Shape.PlatformRule rule ∧ ¬ rule.StandsIn "rem_base" "remBase")) := by
    refine ⟨_, foundRules, rules, rfl, fun rule mem => ?_⟩
    obtain ⟨rule, rfl, ruleShape⟩ := each rule mem
    exact ⟨rule, rfl, ruleShape,
      fun uses => alone ⟨fields, rules, rule, rfl, foundRules, mem, uses⟩⟩
  obtain ⟨models, decodedRules, _, found, _, rfl, kept⟩ :=
    PlatformRule.decode_takes.array.defaulted distinct ruleShapes [] [] []
  refine ⟨⟨schema, version, platform, models⟩, ?_, ?_⟩
  · rw [decode, Decoded.model, decodedSchema, decodedVersion, decodedPlatform,
      decodedRules]
    rfl
  · simp [PlatformRules.document, Encoded.optional_eq keptSchema, Encoded.optional_eq keptVersion,
      Encoded.array_eq kept, arranged, Json.arranged, Fields.arranged, found, foundPlatform]

/-! ## System manifests -/

/-- The names that stand in for those of documents at the top of a manifest. -/
def SystemManifest.fieldNames : List (String × String) :=
  [("schema_uri", "$schema"), ("component_source", "componentSource"),
    ("default_platform", "defaultPlatform"), ("default_theme", "defaultTheme")]

def SystemManifest.UsesFieldName (document : Json) : Prop :=
  ∃ fields : Fields, document = .object fields ∧
    ∃ names ∈ SystemManifest.fieldNames, fields.StandsIn names.1 names.2

theorem ComponentSource.decode_takes : Decoded.Takes ComponentSource.decode
    (Json.IsObject Shape.ComponentSource) fun _ _ => True := by
  rintro pointer _ distinct ⟨fields, rfl, shape⟩
  obtain ⟨type, decodedType, -⟩ :=
    (Decoded.member_takes SourceType).required distinct shape.type [] pointer
  obtain ⟨value, decodedValue, -⟩ := Decoded.string_takes.required distinct shape.value [] pointer
  exact ⟨⟨type, value⟩, by rw [decode, Decoded.model, decodedType, decodedValue]; rfl, trivial⟩

theorem SystemManifest.decode_of_shape {document : Json} (distinct : document.Distinct)
    (fits : document.IsObject Shape.SystemManifest)
    (alone : ¬ SystemManifest.UsesFieldName document) :
    ∃ model, SystemManifest.decode document = .ok model := by
  obtain ⟨fields, rfl, shape⟩ := fits
  have alone : ∀ names ∈ fieldNames, ¬ Fields.StandsIn fields names.1 names.2 :=
    fun names mem uses => alone ⟨fields, rfl, names, mem, uses⟩
  simp only [fieldNames, List.forall_mem_cons] at alone
  obtain ⟨aloneSchema, aloneSource, alonePlatform, aloneTheme, -⟩ := alone
  obtain ⟨schema, decodedSchema, -⟩ := Decoded.string_takes.optional (by simp [Json.IsText])
    distinct shape.schema ["schema_uri"] (by simpa using aloneSchema) []
  obtain ⟨name, decodedName, -⟩ := Decoded.string_takes.required distinct shape.name [] []
  obtain ⟨version, decodedVersion, -⟩ := Decoded.string_takes.required distinct shape.version [] []
  obtain ⟨description, decodedDescription, -⟩ := Decoded.string_takes.lone
    (by simp [Json.IsText]) distinct shape.description []
  obtain ⟨source, decodedSource, -⟩ := ComponentSource.decode_takes.optional
    (by simp [Json.IsObject]) distinct shape.componentSource ["component_source"]
    (by simpa using aloneSource) []
  obtain ⟨platform, decodedPlatform, -⟩ := (Decoded.member_takes Platform).optional
    (by simp [Json.IsWord]) distinct shape.defaultPlatform ["default_platform"]
    (by simpa using alonePlatform) []
  obtain ⟨theme, decodedTheme, -⟩ := (Decoded.member_takes Theme).optional
    (by simp [Json.IsWord]) distinct shape.defaultTheme ["default_theme"]
    (by simpa using aloneTheme) []
  refine ⟨⟨schema, name, version, description, source, platform, theme,
    Decoded.extras declared fields⟩, ?_⟩
  rw [decode, Decoded.model, schemaNames, componentSourceNames, defaultPlatformNames,
    defaultThemeNames, decodedSchema, decodedName, decodedVersion, decodedDescription,
    decodedSource, decodedPlatform, decodedTheme]
  rfl

/-! ## Contracts -/

/-- The code reference has its export name under another name. -/
def ComponentContract.UsesFieldName (document : Json) : Prop :=
  ∃ fields code : Fields, document = .object fields ∧ fields.get? "code" = some (.object code) ∧
    code.StandsIn "export_name" "exportName"

theorem ComponentContract.decode_of_shape {document : Json} (distinct : document.Distinct)
    (fits : document.IsObject Shape.ContractStructure)
    (alone : ¬ ComponentContract.UsesFieldName document) :
    ∃ model, ComponentContract.decode document = .ok model := by
  obtain ⟨fields, rfl, shape⟩ := fits
  rcases ComponentContract.decode_cases distinct shape with
    ⟨model, decoded, -⟩ | ⟨code, part, found, uses, -, -⟩
  · exact ⟨model, decoded⟩
  · exact absurd ⟨fields, code, rfl, found, uses⟩ alone

/-! ## Accepted documents -/

namespace Schema

/-- The check of a kind of document returns without an issue. -/
def Accepts {α : Type} (schema : Schema α) (document : Json) : Prop :=
  ∃ report, schema.check document = .ok report ∧ report.valid = true

theorem accepts_total {issues : Json → List Issue} {document : Json}
    (accepted : ∃ report, total issues document = .ok report ∧ report.valid = true) :
    issues document = [] := by
  obtain ⟨_, checked, valid⟩ := accepted
  cases checked
  exact List.isEmpty_iff.mp valid

theorem accepts_guarded {oversized : Json → Bool} {issues : Json → List Issue} {document : Json}
    (accepted : ∃ report, guarded oversized issues document = .ok report ∧ report.valid = true) :
    issues document = [] := by
  obtain ⟨_, checked, valid⟩ := accepted
  unfold guarded at checked
  split at checked
  · cases checked
  · cases checked
    exact List.isEmpty_iff.mp valid

end Schema
end DesignSystem
