import DesignSystem.Proofs.Check.Shape
import DesignSystem.Proofs.Number.Range
import DesignSystem.Schema

/-! # The shapes of token layers and manifests

* `Shape.CoreTokens`, `Shape.SemanticTokens`, `Shape.PlatformRules`, `Shape.SystemManifest`: the
  fields of the documents that the checks accept.
* `Check.coreTokens_decides`, …: each check finds no issue in exactly its documents.
* `Schema.valid_iff_shape`: if no integer is beyond the range of binary64, each check returns, and
  its report is valid for exactly its documents.
-/

namespace DesignSystem
set_option autoImplicit false

/-- A number within the range of binary64; truth values are no numbers. -/
def Json.IsFiniteNumber (document : Json) : Prop :=
  ∃ n : Number, document = .number n ∧ n.IsFinite

namespace Shape

/-! ## Core tokens -/

structure CoreToken (fields : Fields) : Prop where
  value : fields.Has "value" fun part => part.IsText ∨ part.IsFiniteNumber
  category : fields.May "category" (Json.IsWord Category)
  description : fields.May "description" Json.IsText

structure CoreTokens (fields : Fields) : Prop where
  only : fields.Only ["tokens", "$schema", "$version"]
  schema : fields.May "$schema" Json.IsText
  version : fields.May "$version" Json.IsText
  tokens : fields.Has "tokens" (Json.IsObject (Fields.Each · (Json.IsObject CoreToken)))

/-! ## Semantic tokens -/

structure SemanticToken (fields : Fields) : Prop where
  ref : fields.Has "ref" Json.IsText
  description : fields.May "description" Json.IsText

structure SemanticTokens (fields : Fields) : Prop where
  only : fields.Only ["$theme", "tokens", "$schema", "$version"]
  schema : fields.May "$schema" Json.IsText
  version : fields.May "$version" Json.IsText
  theme : fields.Has "$theme" (Json.IsWord Theme)
  tokens : fields.Has "tokens" (Json.IsObject (Fields.Each · (Json.IsObject SemanticToken)))

/-! ## Platform rules -/

structure PlatformRule (fields : Fields) : Prop where
  category : fields.Has "category" Json.IsText
  transform : fields.Has "transform" (Json.IsWord Transform)
  remBase : fields.May "remBase" fun part =>
    ∃ n : Number, part = .number n ∧ n.IsFinite ∧ 0 < n.value

structure PlatformRules (fields : Fields) : Prop where
  only : fields.Only ["$platform", "rules", "$schema", "$version"]
  schema : fields.May "$schema" Json.IsText
  version : fields.May "$version" Json.IsText
  platform : fields.Has "$platform" (Json.IsWord Platform)
  rules : fields.Has "rules" (Json.IsArray (Json.IsObject PlatformRule))

/-! ## The system manifest -/

structure ComponentSource (fields : Fields) : Prop where
  type : fields.Has "type" (Json.IsWord SourceType)
  value : fields.Has "value" Json.IsText

structure SystemManifest (fields : Fields) : Prop where
  schema : fields.May "$schema" Json.IsText
  name : fields.Has "name" Json.IsText
  version : fields.Has "version" Json.IsText
  description : fields.May "description" Json.IsText
  defaultPlatform : fields.May "defaultPlatform" (Json.IsWord Platform)
  defaultTheme : fields.May "defaultTheme" (Json.IsWord Theme)
  componentSource : fields.May "componentSource" (Json.IsObject ComponentSource)

end Shape

namespace Check

/-! ## Core tokens -/

theorem coreValue_decides :
    Decides coreValue fun part => part.IsText ∨ part.IsFiniteNumber := by
  intro pointer part
  have text : part.isString = true ↔ part.IsText := by
    cases part <;> simp [Json.isString, Json.IsText]
  have number : part.isNumber = true ↔ part.IsFiniteNumber := Json.isNumber_iff
  change _ ↔ part.IsText ∨ part.IsFiniteNumber
  rw [← text, ← number, ← Bool.or_eq_true, coreValue]
  split
  · next accepted => simp [accepted]
  · next refused => simp [refused]

theorem coreToken_decides : Decides coreToken (Json.IsObject Shape.CoreToken) := by
  refine DecidesInside.object (((coreValue_decides.optional "value").append
    ((member_decides Category).optional "category")).append
    (string_decides.optional "description")) fun fields => ?_
  simp only [List.mem_singleton, forall_eq]
  constructor
  · rintro ⟨there, ⟨value, category⟩, description⟩
    exact ⟨Fields.has_and_may.mp ⟨there, value⟩, category, description⟩
  · rintro ⟨value, category, description⟩
    exact ⟨value.has, ⟨value.may, category⟩, description⟩

theorem schemaAndVersion_decides : DecidesInside schemaAndVersion fun fields =>
    fields.May "$schema" Json.IsText ∧ fields.May "$version" Json.IsText :=
  (string_decides.optional "$schema").append (string_decides.optional "$version")

theorem coreTokens_decides (document : Json) :
    coreTokens document = [] ↔ document.IsObject Shape.CoreTokens := by
  refine DecidesInside.object (((closed_decides ("tokens" :: metaFields)).append
    schemaAndVersion_decides).append (coreToken_decides.dictionary.optional "tokens"))
    (fun fields => ?_) [] document
  simp only [List.mem_singleton, forall_eq]
  constructor
  · rintro ⟨there, ⟨only, schema, version⟩, tokens⟩
    exact ⟨only, schema, version, Fields.has_and_may.mp ⟨there, tokens⟩⟩
  · rintro ⟨only, schema, version, tokens⟩
    exact ⟨tokens.has, ⟨only, schema, version⟩, tokens.may⟩

/-! ## Semantic tokens -/

theorem semanticToken_decides : Decides semanticToken (Json.IsObject Shape.SemanticToken) := by
  refine DecidesInside.object ((string_decides.optional "ref").append
    (string_decides.optional "description")) fun fields => ?_
  simp only [List.mem_singleton, forall_eq]
  constructor
  · rintro ⟨there, ref, description⟩
    exact ⟨Fields.has_and_may.mp ⟨there, ref⟩, description⟩
  · rintro ⟨ref, description⟩
    exact ⟨ref.has, ref.may, description⟩

theorem semanticTokens_decides (document : Json) :
    semanticTokens document = [] ↔ document.IsObject Shape.SemanticTokens := by
  refine DecidesInside.object ((((closed_decides ("$theme" :: "tokens" :: metaFields)).append
    schemaAndVersion_decides).append ((member_decides Theme).optional "$theme")).append
    (semanticToken_decides.dictionary.optional "tokens")) (fun fields => ?_) [] document
  simp only [List.forall_mem_cons, List.not_mem_nil, false_imp_iff, implies_true, and_true]
  constructor
  · rintro ⟨⟨hasTheme, hasTokens⟩, ⟨⟨only, schema, version⟩, theme⟩, tokens⟩
    exact ⟨only, schema, version, Fields.has_and_may.mp ⟨hasTheme, theme⟩,
      Fields.has_and_may.mp ⟨hasTokens, tokens⟩⟩
  · rintro ⟨only, schema, version, theme, tokens⟩
    exact ⟨⟨theme.has, tokens.has⟩, ⟨⟨only, schema, version⟩, theme.may⟩, tokens.may⟩

/-! ## Platform rules -/

theorem remBase_decides : Decides remBase fun part =>
    ∃ n : Number, part = .number n ∧ n.IsFinite ∧ 0 < n.value := by
  intro pointer part
  unfold remBase
  by_cases number : part.isNumber = true
  · obtain ⟨n, rfl, finite⟩ := Json.isNumber_iff.mp number
    have positive := Json.isPositive_iff finite
    simp [number, ← positive, finite]
  · have other : ¬ ∃ n : Number, part = .number n ∧ n.IsFinite ∧ 0 < n.value := by
      rintro ⟨n, same, finite, -⟩
      exact number (Json.isNumber_iff.mpr ⟨n, same, finite⟩)
    simp [number, other]

theorem platformRule_decides : Decides platformRule (Json.IsObject Shape.PlatformRule) := by
  refine DecidesInside.object (((string_decides.optional "category").append
    ((member_decides Transform).optional "transform")).append
    (remBase_decides.optional "remBase")) fun fields => ?_
  simp only [List.forall_mem_cons, List.not_mem_nil, false_imp_iff, implies_true, and_true]
  constructor
  · rintro ⟨⟨hasCategory, hasTransform⟩, ⟨category, transform⟩, remBase⟩
    exact ⟨Fields.has_and_may.mp ⟨hasCategory, category⟩,
      Fields.has_and_may.mp ⟨hasTransform, transform⟩, remBase⟩
  · rintro ⟨category, transform, remBase⟩
    exact ⟨⟨category.has, transform.has⟩, ⟨category.may, transform.may⟩, remBase⟩

theorem platformRules_decides (document : Json) :
    platformRules document = [] ↔ document.IsObject Shape.PlatformRules := by
  refine DecidesInside.object ((((closed_decides ("$platform" :: "rules" :: metaFields)).append
    schemaAndVersion_decides).append ((member_decides Platform).optional "$platform")).append
    (platformRule_decides.array.optional "rules")) (fun fields => ?_) [] document
  simp only [List.forall_mem_cons, List.not_mem_nil, false_imp_iff, implies_true, and_true]
  constructor
  · rintro ⟨⟨hasPlatform, hasRules⟩, ⟨⟨only, schema, version⟩, platform⟩, rules⟩
    exact ⟨only, schema, version, Fields.has_and_may.mp ⟨hasPlatform, platform⟩,
      Fields.has_and_may.mp ⟨hasRules, rules⟩⟩
  · rintro ⟨only, schema, version, platform, rules⟩
    exact ⟨⟨platform.has, rules.has⟩, ⟨⟨only, schema, version⟩, platform.may⟩, rules.may⟩

/-! ## The system manifest -/

theorem componentSource_decides :
    Decides componentSource (Json.IsObject Shape.ComponentSource) := by
  refine DecidesInside.object (((member_decides SourceType).optional "type").append
    (string_decides.optional "value")) fun fields => ?_
  simp only [List.forall_mem_cons, List.not_mem_nil, false_imp_iff, implies_true, and_true]
  constructor
  · rintro ⟨⟨hasType, hasValue⟩, type, value⟩
    exact ⟨Fields.has_and_may.mp ⟨hasType, type⟩, Fields.has_and_may.mp ⟨hasValue, value⟩⟩
  · rintro ⟨type, value⟩
    exact ⟨⟨type.has, value.has⟩, type.may, value.may⟩

theorem systemManifest_decides (document : Json) :
    systemManifest document = [] ↔ document.IsObject Shape.SystemManifest := by
  refine DecidesInside.object (((((((string_decides.optional "$schema").append
    (string_decides.optional "name")).append (string_decides.optional "version")).append
    (string_decides.optional "description")).append
    ((member_decides Platform).optional "defaultPlatform")).append
    ((member_decides Theme).optional "defaultTheme")).append
    (componentSource_decides.optional "componentSource")) (fun fields => ?_) [] document
  simp only [List.forall_mem_cons, List.not_mem_nil, false_imp_iff, implies_true, and_true]
  constructor
  · rintro ⟨⟨hasName, hasVersion⟩,
      ⟨⟨⟨⟨⟨schema, name⟩, version⟩, description⟩, platform⟩, theme⟩, source⟩
    exact ⟨schema, Fields.has_and_may.mp ⟨hasName, name⟩,
      Fields.has_and_may.mp ⟨hasVersion, version⟩, description, platform, theme, source⟩
  · rintro ⟨schema, name, version, description, platform, theme, source⟩
    exact ⟨⟨name.has, version.has⟩,
      ⟨⟨⟨⟨⟨schema, name.may⟩, version.may⟩, description⟩, platform⟩, theme⟩, source⟩

/-! ## Checks that return -/

theorem fieldOversized_eq_false (name : String) {document : Json}
    (inRange : document.integersInRange = true) : fieldOversized name document = false := by
  cases document with
  | object fields =>
    rw [fieldOversized]
    cases found : Fields.get? fields name with
    | none => rfl
    | some part =>
      have part := Json.integersInRange_object.mp inRange _ (mem_of_lookup found)
      simpa using Json.isOversized_eq_false part
  | _ => rfl

theorem coreTokensOversized_eq_false {document : Json}
    (inRange : document.integersInRange = true) : coreTokensOversized document = false := by
  unfold coreTokensOversized
  split
  · split
    · next fields _ tokens found =>
      have tokens := Json.integersInRange_object.mp
        (Json.integersInRange_object.mp inRange _ (mem_of_lookup found))
      rw [List.any_eq_false]
      exact fun token mem => by simp [fieldOversized_eq_false "value" (tokens token mem)]
    · rfl
  · rfl

theorem platformRulesOversized_eq_false {document : Json}
    (inRange : document.integersInRange = true) : platformRulesOversized document = false := by
  unfold platformRulesOversized
  split
  · split
    · next fields _ rules found =>
      have rules := Json.integersInRange_array.mp
        (Json.integersInRange_object.mp inRange _ (mem_of_lookup found))
      rw [List.any_eq_false]
      exact fun rule mem => by simp [fieldOversized_eq_false "remBase" (rules rule mem)]
    · rfl
  · rfl

end Check

namespace Schema

theorem guarded_eq_ok {oversized : Json → Bool} {document : Json}
    (fits : oversized document = false) (issues : Json → List Issue) :
    guarded oversized issues document = .ok ⟨issues document⟩ := by
  simp [guarded, fits]

theorem core_check {document : Json} (inRange : document.integersInRange = true) :
    core.check document = .ok ⟨Check.coreTokens document⟩ :=
  guarded_eq_ok (Check.coreTokensOversized_eq_false inRange) _

theorem platform_check {document : Json} (inRange : document.integersInRange = true) :
    platform.check document = .ok ⟨Check.platformRules document⟩ :=
  guarded_eq_ok (Check.platformRulesOversized_eq_false inRange) _

/-- If the integers of a document are within the range of binary64, the checks of token layers and
manifests return, and what they find valid are exactly the documents of their shapes. -/
theorem valid_iff_shape {document : Json} (inRange : document.integersInRange = true) :
    (∃ report, core.check document = .ok report ∧
      (report.valid = true ↔ document.IsObject Shape.CoreTokens)) ∧
    (∃ report, semantic.check document = .ok report ∧
      (report.valid = true ↔ document.IsObject Shape.SemanticTokens)) ∧
    (∃ report, platform.check document = .ok report ∧
      (report.valid = true ↔ document.IsObject Shape.PlatformRules)) ∧
    (∃ report, system.check document = .ok report ∧
      (report.valid = true ↔ document.IsObject Shape.SystemManifest)) := by
  have valid : ∀ issues : List Issue, (Report.mk issues).valid = true ↔ issues = [] :=
    fun issues => List.isEmpty_iff
  refine ⟨⟨_, core_check inRange, ?_⟩, ⟨_, rfl, ?_⟩, ⟨_, platform_check inRange, ?_⟩,
    ⟨_, rfl, ?_⟩⟩
  · rw [valid, Check.coreTokens_decides]
  · rw [valid, Check.semanticTokens_decides]
  · rw [valid, Check.platformRules_decides]
  · rw [valid, Check.systemManifest_decides]

/-- Rules for one category, with a field that no rule declares. -/
def rulesWithBase (remBase : Json) : Json :=
  .object [("rules", .array [.object [("note", .null), ("category", .string ""),
    ("remBase", remBase), ("transform", .string "rem")]]), ("$platform", .string "rn")]

/-- The smallest positive number is a rem base; the truth value and infinity are none. -/
theorem valid_iff_shape_remBase :
    let least := rulesWithBase (.number (.float (.finite false 1 (-1074) (by decide))))
    let truth := rulesWithBase (.bool true)
    let endless := rulesWithBase (.number (.float (.infinity false)))
    (least.integersInRange = true ∧ least.IsObject Shape.PlatformRules) ∧
    (truth.integersInRange = true ∧ ¬ truth.IsObject Shape.PlatformRules) ∧
    (endless.integersInRange = true ∧ ¬ endless.IsObject Shape.PlatformRules) := by
  intro least truth endless
  have leastFits : least.integersInRange = true := by decide
  have truthFits : truth.integersInRange = true := by decide
  have endlessFits : endless.integersInRange = true := by decide
  obtain ⟨-, -, ⟨_, checked, accepted⟩, -⟩ := valid_iff_shape leastFits
  obtain ⟨-, -, ⟨_, checkedTruth, truthRefused⟩, -⟩ := valid_iff_shape truthFits
  obtain ⟨-, -, ⟨_, checkedEndless, endlessRefused⟩, -⟩ := valid_iff_shape endlessFits
  cases checked
  cases checkedTruth
  cases checkedEndless
  exact ⟨⟨leastFits, accepted.mp (by decide)⟩,
    ⟨truthFits, fun shape => absurd (truthRefused.mpr shape) (by decide)⟩,
    ⟨endlessFits, fun shape => absurd (endlessRefused.mpr shape) (by decide)⟩⟩

end Schema
end DesignSystem
