import DesignSystem.Model.Contract
import DesignSystem.Proofs.Model.Taken

/-! # What decoded models come from

What has been decoded says what the document was: each part of a model has been decoded from its
field, and each item and entry from one of the container.

* `Decoded.seq_eq_ok`, `Decoded.model_eq_ok`: a model is decoded if all its parts are.
* `Decoded.array_eq_ok`, `Decoded.dict_eq_ok`: the items and entries that values come from.
* `Decoded.required_of_get?`, `Decoded.optional_of_get?`, …: the parts of fields that are present
  under the first of their names.
* `Decoded.get?_of_required_member`: a member that was decoded is the one that its field spells.
* `PropDefinition.decode_eq_ok`, `PlatformRule.decode_eq_ok`, …: the parts of decoded models.
-/

namespace DesignSystem
set_option autoImplicit false

/-- Every item of the first of two lists that are related in order is related to one of the
second. -/
theorem exists_of_forall₂ {α β : Type} {related : α → β → Prop} {first : List α} {second : List β}
    (h : List.Forall₂ related first second) {item : α} (mem : item ∈ first) :
    ∃ other ∈ second, related item other := by
  induction h with
  | nil => cases mem
  | cons here _ ih =>
    rcases List.mem_cons.mp mem with rfl | mem
    · exact ⟨_, List.mem_cons_self, here⟩
    · obtain ⟨other, listed, holds⟩ := ih mem
      exact ⟨other, List.mem_cons_of_mem _ listed, holds⟩

namespace Decoded
variable {α β : Type}

/-! ## Combined parts -/

theorem map_eq_ok {f : α → β} {decoded : Decoded α} {result : β} :
    decoded.map f = .ok result ↔ ∃ value, decoded = .ok value ∧ f value = result := by
  cases decoded <;> simp [map]

theorem apply_eq_ok {build : Decoded (α → β)} {decoded : Decoded α} {result : β} :
    build.apply decoded = .ok result ↔
      ∃ f, build = .ok f ∧ ∃ value, decoded = .ok value ∧ f value = result := by
  cases build <;> cases decoded <;> simp [apply]

theorem seq_eq_ok {build : Decoded (α → β)} {decoded : Decoded α} {result : β} :
    build <*> decoded = .ok result ↔
      ∃ f, build = .ok f ∧ ∃ value, decoded = .ok value ∧ f value = result :=
  apply_eq_ok

theorem functor_map_eq_ok {f : α → β} {decoded : Decoded α} {result : β} :
    f <$> decoded = .ok result ↔ ∃ value, decoded = .ok value ∧ f value = result := by
  change (Decoded.ok f).apply decoded = _ ↔ _
  simp [apply_eq_ok]

theorem model_eq_ok {name : String} {inside : Pointer → Fields → Decoded α} {pointer : Pointer}
    {document : Json} {result : α} : model name inside pointer document = .ok result ↔
      ∃ fields, document = .object fields ∧ inside pointer fields = .ok result := by
  cases document <;> simp [model, mismatch]

/-! ## Scalars -/

/-- A decoded member is the one that the document spells. -/
theorem member_eq_ok [Vocabulary α] {pointer : Pointer} {document : Json} {value : α}
    (h : member α pointer document = .ok value) : document = Encoded.word value := by
  cases document with
  | string text =>
    cases unicode : text.string? with
    | none => simp [member, unicode, mismatch] at h
    | some word =>
      obtain rfl := Text.string?_eq_some_iff.mp unicode
      cases found : (Vocabulary.member? word : Option α) with
      | none => simp [member, found, mismatch] at h
      | some other =>
        obtain rfl : other = value := by simpa [member, found] using h
        have spelled : Vocabulary.word other = word := by simpa using List.find?_some found
        rw [Encoded.word, spelled]
  | _ => simp [member, mismatch] at h

/-! ## Containers -/

theorem all_eq_ok_iff {ι : Type} {decode : ι → Decoded α} {items : List ι} {values : List α} :
    all (items.map decode) = .ok values ↔
      List.Forall₂ (fun value item => decode item = .ok value) values items := by
  induction items generalizing values with
  | nil => simp [all, eq_comm]
  | cons item items ih =>
    rw [List.map_cons, all, apply_eq_ok]
    constructor
    · rintro ⟨_, first, rest, decoded, rfl⟩
      obtain ⟨value, here, rfl⟩ := map_eq_ok.mp first
      exact .cons here (ih.mp decoded)
    · intro each
      cases each with
      | cons here others =>
        exact ⟨_, map_eq_ok.mpr ⟨_, here, rfl⟩, _, ih.mpr others, rfl⟩

theorem array_eq_ok {item : Pointer → Json → Decoded α} {pointer : Pointer} {document : Json}
    {values : List α} (h : array item pointer document = .ok values) :
    ∃ items, document = .array items ∧
      List.Forall₂ (fun value part => ∃ place, item place part = .ok value) values items := by
  cases document with
  | array items =>
    refine ⟨items, rfl, ?_⟩
    rw [← List.zipIdx_map_fst 0 items, List.forall₂_map_right_iff]
    exact (all_eq_ok_iff.mp h).imp fun value placed decoded => ⟨_, decoded⟩
  | _ => cases h

/-- Every entry has been decoded from a field of its name; of several the last one counts. -/
theorem dict_eq_ok {entry : Pointer → Json → Decoded α} {pointer : Pointer} {document : Json}
    {values : Dict α} (h : dict entry pointer document = .ok values) :
    ∃ fields : Fields, document = .object fields ∧ ∀ found ∈ values.entries,
      ∃ field ∈ fields, field.1 = found.1 ∧ ∃ place, entry place field.2 = .ok found.2 := by
  cases document with
  | object fields =>
    obtain ⟨entries, decoded, rfl⟩ := map_eq_ok.mp h
    refine ⟨fields, rfl, fun found mem => ?_⟩
    obtain ⟨field, listed, here⟩ :=
      exists_of_forall₂ (all_eq_ok_iff.mp decoded) (mem_collect mem)
    obtain ⟨value, decodedValue, rfl⟩ := map_eq_ok.mp here
    exact ⟨field, listed, rfl, _, decodedValue⟩
  | _ => cases h

/-! ## Fields -/

section
variable {part : Pointer → Json → Decoded α} {fields : Fields} {name : String} {document : Json}

theorem required_of_get? (found : fields.get? name = some document) (others : List String)
    (pointer : Pointer) :
    required (name :: others) part pointer fields = part (pointer ++ [.field name]) document := by
  simp [required, find?_of_get? found]

/-- A member that a field has to give is the one it spells, under the first of its names. -/
theorem get?_of_required_member [Vocabulary α] {shape : Json → Prop} {others : List String}
    {pointer : Pointer} {value : α} (has : fields.Has name shape)
    (decodes : required (name :: others) (member α) pointer fields = .ok value) :
    fields.get? name = some (Encoded.word value) := by
  obtain ⟨part, found, -⟩ := has
  rw [required_of_get? found] at decodes
  rw [found, member_eq_ok decodes]

theorem defaulted_of_get? (found : fields.get? name = some document) (others : List String)
    (default : α) (pointer : Pointer) : defaulted (name :: others) default part pointer fields =
      part (pointer ++ [.field name]) document := by
  simp [defaulted, find?_of_get? found]

theorem optional_of_get? (found : fields.get? name = some document) (present : document ≠ .null)
    (others : List String) (pointer : Pointer) :
    optional (name :: others) part pointer fields =
      (part (pointer ++ [.field name]) document).map some := by
  simp [optional, find?_of_get? found]

theorem optional_alone (absent : fields.get? name = none) {others : List String}
    (alone : ∀ other ∈ others, ¬ fields.StandsIn other name) (pointer : Pointer) :
    optional (name :: others) part pointer fields = .ok none := by
  simp [optional, find?_alone absent alone]

end
end Decoded

/-! ## Models -/

theorem PropDefinition.decode_eq_ok {pointer : Pointer} {document : Json} {prop : PropDefinition}
    (h : decode pointer document = .ok prop) : ∃ fields, document = .object fields ∧
      Decoded.required ["type"] (Decoded.member PropType) pointer fields = .ok prop.type ∧
      Decoded.optional ["values"] (Decoded.array Decoded.string) pointer fields =
        .ok prop.values := by
  obtain ⟨fields, rfl, parts⟩ := Decoded.model_eq_ok.mp h
  simp only [Decoded.seq_eq_ok, Decoded.functor_map_eq_ok] at parts
  obtain ⟨_, ⟨_, ⟨_, ⟨_, ⟨_, ⟨type, decodedType, rfl⟩, values, decodedValues, rfl⟩, -, -, rfl⟩,
    -, -, rfl⟩, -, -, rfl⟩, -, -, rfl⟩ := parts
  exact ⟨fields, rfl, decodedType, decodedValues⟩

theorem ComponentContract.decode_eq_ok {document : Json} {contract : ComponentContract}
    (h : decode document = .ok contract) : ∃ fields, document = .object fields ∧
      Decoded.required ["platformTargets", "platform_targets"]
        (Decoded.array (Decoded.member Platform)) [] fields = .ok contract.platformTargets ∧
      Decoded.defaulted ["props"] .empty (Decoded.dict PropDefinition.decode) [] fields =
        .ok contract.props := by
  obtain ⟨fields, rfl, parts⟩ := Decoded.model_eq_ok.mp h
  simp only [Decoded.seq_eq_ok, Decoded.functor_map_eq_ok] at parts
  obtain ⟨_, ⟨_, ⟨_, ⟨_, ⟨_, ⟨_, ⟨_, ⟨_, ⟨_, ⟨-, -, rfl⟩, -, -, rfl⟩, -, -, rfl⟩, -, -, rfl⟩,
    targets, decodedTargets, rfl⟩, props, decodedProps, rfl⟩, -, -, rfl⟩, -, -, rfl⟩, -, -, rfl⟩,
    -, -, rfl⟩ := parts
  exact ⟨fields, rfl, decodedTargets, decodedProps⟩

theorem CoreToken.decode_eq_ok {pointer : Pointer} {document : Json} {token : CoreToken}
    (h : decode pointer document = .ok token) : ∃ fields, document = .object fields ∧
      Decoded.required ["value"] TokenValue.decode pointer fields = .ok token.value := by
  obtain ⟨fields, rfl, parts⟩ := Decoded.model_eq_ok.mp h
  simp only [Decoded.seq_eq_ok, Decoded.functor_map_eq_ok] at parts
  obtain ⟨_, ⟨_, ⟨value, decodedValue, rfl⟩, -, -, rfl⟩, -, -, rfl⟩ := parts
  exact ⟨fields, rfl, decodedValue⟩

theorem CoreTokens.decode_eq_ok {document : Json} {core : CoreTokens}
    (h : decode document = .ok core) : ∃ fields, document = .object fields ∧
      Decoded.defaulted ["tokens"] .empty (Decoded.dict CoreToken.decode) [] fields =
        .ok core.tokens := by
  obtain ⟨fields, rfl, parts⟩ := Decoded.model_eq_ok.mp h
  simp only [Decoded.seq_eq_ok, Decoded.functor_map_eq_ok] at parts
  obtain ⟨_, ⟨_, ⟨-, -, rfl⟩, -, -, rfl⟩, tokens, decodedTokens, rfl⟩ := parts
  exact ⟨fields, rfl, decodedTokens⟩

theorem PlatformRule.decode_eq_ok {pointer : Pointer} {document : Json} {rule : PlatformRule}
    (h : decode pointer document = .ok rule) : ∃ fields, document = .object fields ∧
      Decoded.optional ["remBase", "rem_base"] Decoded.number pointer fields =
        .ok rule.remBase := by
  obtain ⟨fields, rfl, parts⟩ := Decoded.model_eq_ok.mp h
  simp only [Decoded.seq_eq_ok, Decoded.functor_map_eq_ok] at parts
  obtain ⟨_, ⟨_, ⟨-, -, rfl⟩, -, -, rfl⟩, remBase, decodedBase, rfl⟩ := parts
  exact ⟨fields, rfl, decodedBase⟩

theorem SemanticTokens.decode_eq_ok {document : Json} {semantic : SemanticTokens}
    (h : decode document = .ok semantic) : ∃ fields, document = .object fields ∧
      Decoded.required ["$theme", "theme"] (Decoded.member Theme) [] fields =
        .ok semantic.theme := by
  obtain ⟨fields, rfl, parts⟩ := Decoded.model_eq_ok.mp h
  simp only [Decoded.seq_eq_ok, Decoded.functor_map_eq_ok] at parts
  obtain ⟨_, ⟨_, ⟨_, ⟨-, -, rfl⟩, -, -, rfl⟩, theme, decodedTheme, rfl⟩, -, -, rfl⟩ := parts
  exact ⟨fields, rfl, decodedTheme⟩

theorem PlatformRules.decode_eq_ok {document : Json} {rules : PlatformRules}
    (h : decode document = .ok rules) : ∃ fields, document = .object fields ∧
      Decoded.required ["$platform", "platform"] (Decoded.member Platform) [] fields =
        .ok rules.platform ∧
      Decoded.defaulted ["rules"] [] (Decoded.array PlatformRule.decode) [] fields =
        .ok rules.rules := by
  obtain ⟨fields, rfl, parts⟩ := Decoded.model_eq_ok.mp h
  simp only [Decoded.seq_eq_ok, Decoded.functor_map_eq_ok] at parts
  obtain ⟨_, ⟨_, ⟨_, ⟨-, -, rfl⟩, -, -, rfl⟩, platform, decodedPlatform, rfl⟩, rules, decodedRules,
    rfl⟩ := parts
  exact ⟨fields, rfl, decodedPlatform, decodedRules⟩

end DesignSystem
