import DesignSystem.Model.Contract
import DesignSystem.Proofs.Check.ContractShape
import DesignSystem.Proofs.Model.Taken

/-! # Contracts are decoded

* `PropDefinition.decode_takes`, `VariantDefinition.decode_takes`, …: the parts of contracts are
  decoded.
* `ComponentContract.decode_cases`: a contract that passes the first phase of its check is decoded,
  its examples keeping their props, or has an export name that is no text under another name.
-/

namespace DesignSystem
set_option autoImplicit false

/-! ## Parts of a contract -/

theorem Decoded.optional_any (names : List String) (pointer : Pointer) (fields : Fields) :
    ∃ value, Decoded.optional names Decoded.any pointer fields = .ok value := by
  unfold Decoded.optional
  split
  · exact ⟨none, rfl⟩
  · exact ⟨none, rfl⟩
  · next document _ _ => exact ⟨some document, rfl⟩

theorem PropDefinition.decode_takes :
    Decoded.Takes PropDefinition.decode (Json.IsObject Shape.PropDefinition) fun _ _ => True := by
  rintro pointer _ distinct ⟨fields, rfl, shape⟩
  obtain ⟨type, decodedType, -⟩ :=
    (Decoded.member_takes PropType).required distinct shape.type [] pointer
  obtain ⟨values, decodedValues, -⟩ := Decoded.string_takes.array.lone
    (by simp [Json.IsArray]) distinct shape.values pointer
  obtain ⟨default, decodedDefault⟩ := Decoded.optional_any ["default"] pointer fields
  obtain ⟨required, decodedRequired, -⟩ := Decoded.boolean_takes.lone
    (by simp [Json.IsTruth]) distinct shape.required pointer
  obtain ⟨description, decodedDescription, -⟩ := Decoded.string_takes.lone
    (by simp [Json.IsText]) distinct shape.description pointer
  refine ⟨⟨type, values, default, required, description, Decoded.extras declared fields⟩, ?_,
    trivial⟩
  rw [decode, Decoded.model, decodedType, decodedValues, decodedDefault, decodedRequired,
    decodedDescription]
  rfl

theorem VariantDefinition.decode_takes :
    Decoded.Takes VariantDefinition.decode (Json.IsObject Shape.Variant) fun _ _ => True := by
  rintro pointer _ distinct ⟨fields, rfl, shape⟩
  obtain ⟨name, decodedName, -⟩ := Decoded.string_takes.required distinct shape.name [] pointer
  obtain ⟨description, decodedDescription, -⟩ := Decoded.string_takes.lone
    (by simp [Json.IsText]) distinct shape.description pointer
  obtain ⟨props, decodedProps, -⟩ :=
    Decoded.anyObject_takes.defaulted distinct shape.props [] [] pointer
  refine ⟨⟨name, description, props, Decoded.extras declared fields⟩, ?_, trivial⟩
  rw [decode, Decoded.model, decodedName, decodedDescription, decodedProps]
  rfl

theorem StateDefinition.decode_takes :
    Decoded.Takes StateDefinition.decode (Json.IsObject Shape.State) fun _ _ => True := by
  rintro pointer _ distinct ⟨fields, rfl, shape⟩
  obtain ⟨name, decodedName, -⟩ := Decoded.string_takes.required distinct shape.name [] pointer
  obtain ⟨description, decodedDescription, -⟩ := Decoded.string_takes.lone
    (by simp [Json.IsText]) distinct shape.description pointer
  refine ⟨⟨name, description, Decoded.extras declared fields⟩, ?_, trivial⟩
  rw [decode, Decoded.model, decodedName, decodedDescription]
  rfl

/-- The props of an example are those of its document. -/
def ComponentExample.Keeps (e : ComponentExample) (document : Json) : Prop :=
  ∃ fields, document = .object fields ∧ Fields.get? fields "props" = some (.object e.props)

theorem ComponentExample.decode_takes :
    Decoded.Takes ComponentExample.decode (Json.IsObject Shape.Example) Keeps := by
  rintro pointer _ distinct ⟨fields, rfl, shape⟩
  obtain ⟨name, decodedName, -⟩ := Decoded.string_takes.lone
    (by simp [Json.IsText]) distinct shape.name pointer
  obtain ⟨description, decodedDescription, -⟩ := Decoded.string_takes.lone
    (by simp [Json.IsText]) distinct shape.description pointer
  obtain ⟨props, decodedProps, _, found, rfl⟩ :=
    Decoded.anyObject_takes.defaulted distinct shape.props [] [] pointer
  refine ⟨⟨name, description, props, Decoded.extras declared fields⟩, ?_, fields, rfl, found⟩
  rw [decode, Decoded.model, decodedName, decodedDescription, decodedProps]
  rfl

/-! ## Code references -/

/-- The export name of a code reference is a text, is null, or is no text and has another name. -/
theorem exportName_cases {fields : Fields} (distinct : (Json.object fields).Distinct)
    (shape : Shape.CodeReference fields) (pointer : Pointer) :
    (∃ exportName, Decoded.optional ["exportName", "export_name"] Decoded.string pointer fields =
        .ok exportName) ∨
    ∃ part, fields.StandsIn "export_name" "exportName" ∧
      fields.get? "export_name" = some part ∧
      Decoded.optional ["exportName", "export_name"] Decoded.string pointer fields =
        .rejected [Mismatch.notString.issue (pointer ++ [.field "export_name"]) part] := by
  -- the check looks at the first name only, so what stands under the other may be anything
  by_cases uses : fields.StandsIn "export_name" "exportName"
  · obtain ⟨absent, there⟩ := uses
    have absent' : fields.get? "exportName" = none := by simpa [Fields.has] using absent
    obtain ⟨part, found⟩ := Fields.has_iff_get?.mp there
    have first : Decoded.find? ["exportName", "export_name"] fields =
        some ("export_name", part) := by
      simp [Decoded.find?, absent', found]
    rw [Decoded.optional, first]
    cases part with
    | null => exact .inl ⟨none, rfl⟩
    | string text => exact .inl ⟨some text, rfl⟩
    | _ => exact .inr ⟨_, ⟨absent, there⟩, found, rfl⟩
  · obtain ⟨exportName, decoded, -⟩ := Decoded.string_takes.optional
      (by simp [Json.IsText]) distinct shape.exportName ["export_name"]
      (by simpa using uses) pointer
    exact .inl ⟨exportName, decoded⟩

theorem CodeReference.decode_cases {fields : Fields} (distinct : (Json.object fields).Distinct)
    (shape : Shape.CodeReference fields) (pointer : Pointer) :
    (∃ code, CodeReference.decode pointer (.object fields) = .ok code) ∨
    ∃ part, fields.StandsIn "export_name" "exportName" ∧
      fields.get? "export_name" = some part ∧
      CodeReference.decode pointer (.object fields) =
        .rejected [Mismatch.notString.issue (pointer ++ [.field "export_name"]) part] := by
  obtain ⟨importPath, decodedPath, -⟩ :=
    Decoded.string_takes.required distinct shape.importPath ["import_path"] pointer
  rw [decode, Decoded.model, decodedPath]
  rcases exportName_cases distinct shape pointer with ⟨exportName, decodedName⟩ | rejected
  · exact .inl ⟨⟨importPath, exportName, Decoded.extras declared fields⟩, by rw [decodedName]; rfl⟩
  · obtain ⟨part, uses, found, decodedName⟩ := rejected
    exact .inr ⟨part, uses, found, by rw [decodedName]; rfl⟩

/-! ## Contracts -/

theorem ComponentContract.decode_of_structure {fields : Fields}
    (distinct : (Json.object fields).Distinct) (shape : Shape.ContractStructure fields) :
    ∃ build : Option CodeReference → ComponentContract,
      ComponentContract.decode (.object fields) =
        (Decoded.optional ["code"] CodeReference.decode [] fields).map build ∧
      ∀ code, List.Forall₂ ComponentExample.Keeps ((build code).examples.getD [])
        (Check.examplesOf fields) := by
  obtain ⟨schema, version, decodedSchema, decodedVersion, -, -⟩ :=
    Decoded.schemaAndVersion_taken distinct shape.only (by simp) shape.schema shape.version []
  have isText : ∀ part, Json.IsComponentName part → part.IsText := by
    rintro _ ⟨capital, rest, ending, rfl, -⟩
    exact ⟨_, rfl⟩
  obtain ⟨name, decodedName, -⟩ :=
    Decoded.string_takes.required distinct (shape.name.mono isText) [] []
  obtain ⟨description, decodedDescription, -⟩ := Decoded.string_takes.lone
    (by simp [Json.IsText]) distinct shape.description []
  have platforms : fields.Has "platformTargets" (Json.IsArray (Json.IsWord Platform)) := by
    obtain ⟨part, found, targets, same, -, each⟩ := shape.platformTargets
    exact ⟨part, found, targets, same, each⟩
  obtain ⟨targets, decodedTargets, -⟩ := (Decoded.member_takes Platform).array.required distinct
    platforms ["platform_targets"] []
  obtain ⟨props, decodedProps, -⟩ :=
    PropDefinition.decode_takes.dict.defaulted distinct shape.props [] .empty []
  obtain ⟨variants, decodedVariants, -⟩ := VariantDefinition.decode_takes.array.lone
    (by simp [Json.IsArray]) distinct shape.variants []
  obtain ⟨states, decodedStates, -⟩ := StateDefinition.decode_takes.array.lone
    (by simp [Json.IsArray]) distinct shape.states []
  obtain ⟨examples, decodedExamples, keptExamples⟩ := ComponentExample.decode_takes.array.lone
    (by simp [Json.IsArray]) distinct shape.examples []
  refine ⟨fun code => ⟨schema, version, name, description, targets, props, variants, states, code,
    examples⟩, ?_, fun code => ?_⟩
  · rw [decode, Decoded.model, decodedSchema, decodedVersion, decodedName, decodedDescription,
      decodedTargets, decodedProps, decodedVariants, decodedStates, decodedExamples]
    cases Decoded.optional ["code"] CodeReference.decode [] fields <;> rfl
  · unfold Check.examplesOf
    change List.Forall₂ _ (examples.getD []) _
    cases found : fields.get? "examples" with
    | none =>
      rw [found] at keptExamples
      cases keptExamples
      exact .nil
    | some part =>
      rw [found] at keptExamples
      cases keptExamples with
      | some kept =>
        obtain ⟨items, rfl, kept⟩ := kept
        exact kept

theorem ComponentContract.decode_cases {fields : Fields} (distinct : (Json.object fields).Distinct)
    (shape : Shape.ContractStructure fields) :
    (∃ contract, ComponentContract.decode (.object fields) = .ok contract ∧
      List.Forall₂ ComponentExample.Keeps (contract.examples.getD [])
        (Check.examplesOf fields)) ∨
    ∃ (code : Fields) (part : Json), fields.get? "code" = some (.object code) ∧
      code.StandsIn "export_name" "exportName" ∧ code.get? "export_name" = some part ∧
      ComponentContract.decode (.object fields) =
        .rejected [Mismatch.notString.issue [.field "code", .field "export_name"] part] := by
  obtain ⟨build, decoded, kept⟩ := ComponentContract.decode_of_structure distinct shape
  rw [decoded, Decoded.optional]
  cases found : fields.get? "code" with
  | none =>
    have absent : Decoded.find? ["code"] fields = none := Decoded.find?_alone found (by simp)
    exact .inl ⟨build none, by rw [absent]; rfl, kept none⟩
  | some document =>
    obtain ⟨code, rfl, codeShape⟩ := shape.code document found
    have here : Decoded.find? ["code"] fields = some ("code", .object code) :=
      Decoded.find?_of_get? found
    rw [here]
    rcases CodeReference.decode_cases (distinct.field found) codeShape [.field "code"] with
      ⟨value, decodedCode⟩ | ⟨part, uses, foundName, decodedCode⟩
    · refine .inl ⟨build (some value), ?_, kept (some value)⟩
      simp [decodedCode, Decoded.map]
    · refine .inr ⟨code, part, rfl, uses, foundName, ?_⟩
      simp [decodedCode, Decoded.map]

end DesignSystem
