import DesignSystem.Proofs.Check.Totality
import DesignSystem.Proofs.Model.Agreement
import DesignSystem.Proofs.Model.Layout
import DesignSystem.Proofs.Model.Origin

/-! # Token layers and manifests that settle

What a model of a token layer is written as is decoded as this model. Of a manifest the extra fields
that are null are not written, so it is decoded without them, and then it is written alike.

* `CoreTokens.layout`, `SystemManifest.layout`, …: what is written of each field.
* `CoreTokens.decode_document`, `SemanticTokens.decode_document`, `SystemManifest.decode_document`:
  what is decoded from what is written.
* `CoreTokens.Settled.shape`, `SemanticTokens.document_shape`, `SystemManifest.document_shape`: what
  is written is accepted.
* `CoreTokens.settled_of_decode`, `SystemManifest.extended_of_decode`: the models of accepted
  documents.
-/

namespace DesignSystem
set_option autoImplicit false

open Json Decoded

/-! ## Vocabularies -/

theorem Theme.lawful : Vocabulary.Lawful Theme :=
  ⟨fun value => by cases value <;> decide, fun value => by cases value <;> rfl⟩

theorem Platform.lawful : Vocabulary.Lawful Platform :=
  ⟨fun value => by cases value <;> decide, fun value => by cases value <;> rfl⟩

theorem Category.lawful : Vocabulary.Lawful Category :=
  ⟨fun value => by cases value <;> decide, fun value => by cases value <;> rfl⟩

theorem SourceType.lawful : Vocabulary.Lawful SourceType :=
  ⟨fun value => by cases value <;> decide, fun value => by cases value <;> rfl⟩

/-! ## Containers -/

theorem dict_isObject {α : Type} {encode : α → Json} {values : Dict α} {shape : Json → Prop}
    (each : ∀ entry ∈ values.entries, shape (encode entry.2)) :
    (Encoded.dict encode values).IsObject (Fields.Each · shape) :=
  ⟨_, rfl, List.forall_mem_map.mpr each⟩

theorem array_isArray {α : Type} {encode : α → Json} {values : List α} {shape : Json → Prop}
    (each : ∀ value ∈ values, shape (encode value)) :
    (Json.array (values.map encode)).IsArray shape :=
  ⟨_, rfl, List.forall_mem_map.mpr each⟩

theorem dict_storable {α : Type} {encode : α → Json} {values : Dict α}
    (each : ∀ entry ∈ values.entries, (encode entry.2).Storable) :
    (Encoded.dict encode values).Storable := by
  refine storable_cumulative.object ?_ (List.forall_mem_map.mpr each)
  rw [List.map_map]
  exact values.distinct

theorem array_storable {α : Type} {encode : α → Json} {values : List α}
    (each : ∀ value ∈ values, (encode value).Storable) :
    (Json.array (values.map encode)).Storable :=
  storable_cumulative.array (List.forall_mem_map.mpr each)

/-! ## Core tokens -/

theorem TokenValue.restores (value : TokenValue) :
    Restores TokenValue.decode TokenValue.document value value := by
  intro pointer
  cases value <;> rfl

namespace CoreToken

def layout (token : CoreToken) : Layout :=
  [(["value"], some token.value.document), (["category"], token.category.map Encoded.word),
    (["description"], token.description.map Json.string)]

theorem apart (token : CoreToken) : Layout.Apart token.layout.names :=
  (⟨by decide, by decide⟩ : Layout.Apart [["value"], ["category"], ["description"]])

theorem document_eq (token : CoreToken) : token.document = .object token.layout.fields := by
  simp [document, layout, Layout.fields, Layout.field, Encoded.optional, Function.comp_def]

theorem restores (token : CoreToken) : Restores decode document token token := by
  intro pointer
  have written := Layout.written_fields token.apart
  have value : required ["value"] TokenValue.decode pointer token.layout.fields =
      .ok token.value := written.required 0 token.value.restores rfl pointer
  have category : optional ["category"] (member Category) pointer token.layout.fields =
      .ok token.category := written.word Category.lawful 1 rfl pointer
  have description : optional ["description"] string pointer token.layout.fields =
      .ok token.description := written.text 2 rfl pointer
  rw [document_eq, decode, Decoded.model, value, category, description]
  rfl

/-- The value of a token can be put on disk, and is a text or a number within the range of
binary64. -/
structure Settled (token : CoreToken) : Prop where
  storable : token.value.document.Storable
  accepted : token.value.document.IsText ∨ token.value.document.IsFiniteNumber

theorem Settled.shape {token : CoreToken} (settled : token.Settled) :
    token.document.IsObject Shape.CoreToken := by
  have written := Layout.written_fields token.apart
  exact ⟨_, token.document_eq, written.has 0 rfl settled.accepted,
    written.mayWord Category.lawful 1 rfl, written.mayText 2 rfl⟩

theorem Settled.document_storable {token : CoreToken} (settled : token.Settled) :
    token.document.Storable := by
  rw [document_eq]
  refine Layout.storable_written token.apart ?_
  simp [layout, storable_cumulative.text, Encoded.word, settled.storable]

/-- The token of an accepted document settles. -/
theorem settled_of_decode {pointer : Pointer} {document : Json} {token : CoreToken}
    (decodes : decode pointer document = .ok token) (storable : document.Storable)
    (fits : document.IsObject Shape.CoreToken) : token.Settled := by
  obtain ⟨fields, rfl, decodesValue⟩ := decode_eq_ok decodes
  obtain ⟨_, same, shape⟩ := fits
  cases same
  obtain ⟨part, found, accepted⟩ := shape.value
  have spelled : token.value.document = part := by
    rw [required_of_get? found] at decodesValue
    obtain ⟨value, decodesPart, same⟩ :=
      TokenValue.decode_takes (pointer ++ [.field "value"]) part (storable.1.field found) accepted
    cases decodesPart.symm.trans decodesValue
    exact same
  exact ⟨spelled ▸ storable_cumulative.get? storable found, spelled ▸ accepted⟩

end CoreToken

theorem Shape.CoreTokens.not_stopsCore {document : Json}
    (fits : document.IsObject Shape.CoreTokens) : ¬ Shape.StopsCore document := by
  obtain ⟨fields, rfl, shape⟩ := fits
  rintro ⟨_, same, part, found, tokens, rfl, token, mem, isToken⟩
  cases same
  obtain ⟨_, same, each⟩ := shape.tokens.may _ found
  cases same
  obtain ⟨inside, same, tokenShape⟩ := each token mem
  obtain ⟨_, sameInside, value, foundValue, n, rfl, beyond⟩ := isToken
  cases same.symm.trans sameInside
  rcases tokenShape.value.may _ foundValue with ⟨text, other⟩ | ⟨_, other, finite⟩
  · cases other
  · cases other
    exact beyond finite

namespace CoreTokens

def layout (model : CoreTokens) : Layout :=
  [(schemaNames, model.schema.map Json.string), (versionNames, model.version.map Json.string),
    (["tokens"], some (Encoded.dict CoreToken.document model.tokens))]

theorem apart (model : CoreTokens) : Layout.Apart model.layout.names :=
  (⟨by decide, by decide⟩ : Layout.Apart [schemaNames, versionNames, ["tokens"]])

theorem document_eq (model : CoreTokens) : model.document = .object model.layout.fields := by
  simp [document, layout, Layout.fields, Layout.field, Encoded.optional, Function.comp_def,
    schemaNames, versionNames]

theorem decode_document (model : CoreTokens) : decode model.document = .ok model := by
  have written := Layout.written_fields model.apart
  have schema : optional schemaNames string [] model.layout.fields = .ok model.schema :=
    written.text 0 rfl []
  have version : optional versionNames string [] model.layout.fields = .ok model.version :=
    written.text 1 rfl []
  have tokens : defaulted ["tokens"] .empty (dict CoreToken.decode) [] model.layout.fields =
      .ok model.tokens :=
    written.defaulted 2 (dict_restores_self CoreToken.restores) rfl .empty []
  rw [document_eq, decode, Decoded.model, schema, version, tokens]
  rfl

/-- All tokens settle. -/
def Settled (model : CoreTokens) : Prop := ∀ entry ∈ model.tokens.entries, entry.2.Settled

theorem Settled.shape {model : CoreTokens} (settled : model.Settled) :
    model.document.IsObject Shape.CoreTokens := by
  have written := Layout.written_fields model.apart
  have only := Layout.fields_only model.layout
  have tokens : model.layout.fields.Has "tokens"
      (IsObject (Fields.Each · (IsObject Shape.CoreToken))) :=
    written.has 2 rfl (dict_isObject fun entry mem => (settled entry mem).shape)
  refine ⟨_, model.document_eq, fun field mem => ?_, written.mayText 0 rfl,
    written.mayText 1 rfl, tokens⟩
  have listed : field.1 ∈ ["$schema", "$version", "tokens"] := only field mem
  simp only [List.mem_cons] at listed ⊢
  tauto

theorem Settled.document_storable {model : CoreTokens} (settled : model.Settled) :
    model.document.Storable := by
  have tokens : (Encoded.dict CoreToken.document model.tokens).Storable :=
    dict_storable fun entry mem => (settled entry mem).document_storable
  rw [document_eq]
  refine Layout.storable_written model.apart ?_
  simp [layout, storable_cumulative.text, tokens]

theorem settled_of_decode {document : Json} {model : CoreTokens}
    (decodes : decode document = .ok model) (storable : document.Storable)
    (fits : document.IsObject Shape.CoreTokens) : model.Settled := by
  obtain ⟨fields, rfl, decodesTokens⟩ := decode_eq_ok decodes
  obtain ⟨_, same, shape⟩ := fits
  cases same
  obtain ⟨part, found, tokens, rfl, each⟩ := shape.tokens
  rw [defaulted_of_get? found] at decodesTokens
  obtain ⟨_, same, origin⟩ := dict_eq_ok decodesTokens
  cases same
  intro entry mem
  obtain ⟨field, listed, -, place, decodesToken⟩ := origin entry mem
  exact CoreToken.settled_of_decode decodesToken
    (storable_cumulative.field (storable_cumulative.get? storable found) field listed)
    (each field listed)

end CoreTokens

/-! ## Semantic tokens -/

namespace SemanticToken

def layout (token : SemanticToken) : Layout :=
  [(["ref"], some (.string token.ref)), (["description"], token.description.map Json.string)]

theorem apart (token : SemanticToken) : Layout.Apart token.layout.names :=
  (⟨by decide, by decide⟩ : Layout.Apart [["ref"], ["description"]])

theorem document_eq (token : SemanticToken) : token.document = .object token.layout.fields := by
  simp [document, layout, Layout.fields, Layout.field, Encoded.optional, Function.comp_def]

theorem restores (token : SemanticToken) : Restores decode document token token := by
  intro pointer
  have written := Layout.written_fields token.apart
  have ref : required ["ref"] string pointer token.layout.fields = .ok token.ref :=
    written.required 0 (string_restores token.ref) rfl pointer
  have description : optional ["description"] string pointer token.layout.fields =
      .ok token.description := written.text 1 rfl pointer
  rw [document_eq, decode, Decoded.model, ref, description]
  rfl

theorem document_shape (token : SemanticToken) : token.document.IsObject Shape.SemanticToken := by
  have written := Layout.written_fields token.apart
  exact ⟨_, token.document_eq, written.has 0 rfl ⟨token.ref, rfl⟩, written.mayText 1 rfl⟩

theorem document_storable (token : SemanticToken) : token.document.Storable := by
  rw [document_eq]
  refine Layout.storable_written token.apart ?_
  simp [layout, storable_cumulative.text]

end SemanticToken

namespace SemanticTokens

def layout (model : SemanticTokens) : Layout :=
  [(schemaNames, model.schema.map Json.string), (versionNames, model.version.map Json.string),
    (["$theme", "theme"], some (Encoded.word model.theme)),
    (["tokens"], some (Encoded.dict SemanticToken.document model.tokens))]

theorem apart (model : SemanticTokens) : Layout.Apart model.layout.names :=
  (⟨by decide, by decide⟩ :
    Layout.Apart [schemaNames, versionNames, ["$theme", "theme"], ["tokens"]])

theorem document_eq (model : SemanticTokens) : model.document = .object model.layout.fields := by
  simp [document, layout, Layout.fields, Layout.field, Encoded.optional, Function.comp_def,
    schemaNames, versionNames]

theorem decode_document (model : SemanticTokens) : decode model.document = .ok model := by
  have written := Layout.written_fields model.apart
  have schema : optional schemaNames string [] model.layout.fields = .ok model.schema :=
    written.text 0 rfl []
  have version : optional versionNames string [] model.layout.fields = .ok model.version :=
    written.text 1 rfl []
  have theme : required ["$theme", "theme"] (member Theme) [] model.layout.fields =
      .ok model.theme := written.required 2 (member_restores Theme.lawful model.theme) rfl []
  have tokens : defaulted ["tokens"] .empty (dict SemanticToken.decode) [] model.layout.fields =
      .ok model.tokens :=
    written.defaulted 3 (dict_restores_self SemanticToken.restores) rfl .empty []
  rw [document_eq, decode, Decoded.model, schema, version, theme, tokens]
  rfl

theorem document_shape (model : SemanticTokens) :
    model.document.IsObject Shape.SemanticTokens := by
  have written := Layout.written_fields model.apart
  have only := Layout.fields_only model.layout
  have tokens : model.layout.fields.Has "tokens"
      (IsObject (Fields.Each · (IsObject Shape.SemanticToken))) :=
    written.has 3 rfl (dict_isObject fun entry _ => entry.2.document_shape)
  refine ⟨_, model.document_eq, fun field mem => ?_, written.mayText 0 rfl,
    written.mayText 1 rfl, written.has 2 rfl (Theme.lawful.isWord model.theme), tokens⟩
  have listed : field.1 ∈ ["$schema", "$version", "$theme", "tokens"] := only field mem
  simp only [List.mem_cons] at listed ⊢
  tauto

theorem document_storable (model : SemanticTokens) : model.document.Storable := by
  have tokens : (Encoded.dict SemanticToken.document model.tokens).Storable :=
    dict_storable fun entry _ => entry.2.document_storable
  rw [document_eq]
  refine Layout.storable_written model.apart ?_
  simp [layout, storable_cumulative.text, Encoded.word, tokens]

end SemanticTokens

/-! ## System manifests -/

namespace ComponentSource

def layout (source : ComponentSource) : Layout :=
  [(["type"], some (Encoded.word source.type)), (["value"], some (.string source.value))]

theorem apart (source : ComponentSource) : Layout.Apart source.layout.names :=
  (⟨by decide, by decide⟩ : Layout.Apart [["type"], ["value"]])

theorem document_eq (source : ComponentSource) :
    source.document = .object source.layout.fields := rfl

theorem restores (source : ComponentSource) : Restores decode document source source := by
  intro pointer
  have written := Layout.written_fields source.apart
  have type : required ["type"] (member SourceType) pointer source.layout.fields =
      .ok source.type := written.required 0 (member_restores SourceType.lawful _) rfl pointer
  have value : required ["value"] string pointer source.layout.fields = .ok source.value :=
    written.required 1 (string_restores source.value) rfl pointer
  rw [document_eq, decode, Decoded.model, type, value]
  rfl

theorem document_shape (source : ComponentSource) :
    source.document.IsObject Shape.ComponentSource := by
  have written := Layout.written_fields source.apart
  exact ⟨_, source.document_eq, written.has 0 rfl (SourceType.lawful.isWord source.type),
    written.has 1 rfl ⟨source.value, rfl⟩⟩

theorem document_storable (source : ComponentSource) : source.document.Storable := by
  rw [document_eq]
  refine Layout.storable_written source.apart ?_
  simp [layout, storable_cumulative.text, Encoded.word]

end ComponentSource

namespace SystemManifest

def layout (manifest : SystemManifest) : Layout :=
  [(schemaNames, manifest.schema.map Json.string), (["name"], some (.string manifest.name)),
    (["version"], some (.string manifest.version)),
    (["description"], manifest.description.map Json.string),
    (componentSourceNames, manifest.componentSource.map ComponentSource.document),
    (defaultPlatformNames, manifest.defaultPlatform.map Encoded.word),
    (defaultThemeNames, manifest.defaultTheme.map Encoded.word)]

theorem apart (manifest : SystemManifest) : Layout.Apart manifest.layout.names :=
  (⟨by decide, by decide⟩ : Layout.Apart declared)

theorem document_eq (manifest : SystemManifest) : manifest.document =
    .object (manifest.layout.fields ++ Encoded.extras manifest.extras) := by
  simp [document, layout, Layout.fields, Layout.field, Encoded.optional, Function.comp_def,
    schemaNames, componentSourceNames, defaultPlatformNames, defaultThemeNames]

/-- The manifest without extra fields that are null. -/
def trimmed (manifest : SystemManifest) : SystemManifest :=
  { manifest with extras := manifest.extras.present }

variable {manifest : SystemManifest}

theorem decode_document (extended : manifest.layout.Extended manifest.extras) :
    decode manifest.document = .ok manifest.trimmed := by
  obtain ⟨written, extras⟩ := Layout.written_extras manifest.apart extended
  generalize fields_eq : manifest.layout.fields ++ Encoded.extras manifest.extras = fields
    at written extras
  have schema : optional schemaNames string [] fields = .ok manifest.schema :=
    written.text 0 rfl []
  have name : required ["name"] string [] fields = .ok manifest.name :=
    written.required 1 (string_restores manifest.name) rfl []
  have version : required ["version"] string [] fields = .ok manifest.version :=
    written.required 2 (string_restores manifest.version) rfl []
  have description : optional ["description"] string [] fields = .ok manifest.description :=
    written.text 3 rfl []
  have source : optional componentSourceNames ComponentSource.decode [] fields =
      .ok manifest.componentSource :=
    written.optional_self 4 rfl (fun source _ => ⟨Json.noConfusion, source.restores⟩) []
  have platform : optional defaultPlatformNames (member Platform) [] fields =
      .ok manifest.defaultPlatform := written.word Platform.lawful 5 rfl []
  have theme : optional defaultThemeNames (member Theme) [] fields =
      .ok manifest.defaultTheme := written.word Theme.lawful 6 rfl []
  have extras : Decoded.extras declared fields = manifest.extras.present := extras
  rw [document_eq, fields_eq, decode, Decoded.model, schema, name, version, description, source,
    platform, theme, remaining, extras]
  rfl

theorem document_trimmed (manifest : SystemManifest) :
    manifest.trimmed.document = manifest.document := by
  rw [document_eq, document_eq, trimmed, Encoded.extras_present]
  rfl

theorem document_shape (extended : manifest.layout.Extended manifest.extras) :
    manifest.document.IsObject Shape.SystemManifest := by
  have written := (Layout.written_extras manifest.apart extended).1
  exact ⟨_, manifest.document_eq, written.mayText 0 rfl,
    written.has 1 rfl ⟨manifest.name, rfl⟩, written.has 2 rfl ⟨manifest.version, rfl⟩,
    written.mayText 3 rfl, written.mayWord Platform.lawful 5 rfl,
    written.mayWord Theme.lawful 6 rfl,
    written.may 4 rfl fun source _ => source.document_shape⟩

theorem document_storable (extended : manifest.layout.Extended manifest.extras) :
    manifest.document.Storable := by
  rw [document_eq]
  refine Layout.storable_extras manifest.apart extended ?_
  simp [layout, storable_cumulative.text, Encoded.word, ComponentSource.document_storable]

theorem extended_of_decode {document : Json} (decodes : decode document = .ok manifest)
    (storable : document.Storable) (fits : document.IsObject Shape.SystemManifest) :
    manifest.layout.Extended manifest.extras := by
  obtain ⟨fields, rfl, parts⟩ := model_eq_ok.mp decodes
  obtain ⟨_, same, shape⟩ := fits
  cases same
  simp only [seq_eq_ok, functor_map_eq_ok] at parts
  obtain ⟨_, ⟨_, ⟨_, ⟨_, ⟨_, ⟨_, ⟨_, ⟨schema, decodedSchema, rfl⟩, -, -, rfl⟩, -, -, rfl⟩, -, -,
    rfl⟩, source, decodedSource, rfl⟩, platform, decodedPlatform, rfl⟩, theme, decodedTheme, rfl⟩,
    extras, decodedExtras, rfl⟩ := parts
  cases decodedExtras
  refine Layout.extended_of_extras storable rfl ?_
  simp only [layout, List.forall_mem_cons]
  exact ⟨others_not_mem_extras decodedSchema (by decide) shape.schema (by simp [IsText]),
    by simp, by simp, by simp,
    others_not_mem_extras decodedSource (by decide) shape.componentSource (by simp [IsObject]),
    others_not_mem_extras decodedPlatform (by decide) shape.defaultPlatform (by simp [IsWord]),
    others_not_mem_extras decodedTheme (by decide) shape.defaultTheme (by simp [IsWord]),
    by simp⟩

end SystemManifest
end DesignSystem
