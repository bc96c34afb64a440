import DesignSystem.Proofs.Check.ContractCause
import DesignSystem.Proofs.Usage.Report

/-! # The two phases of the check of a contract

A contract has either issues of its structure or issues of its meaning. The second phase is safe
because the first one has found all that it looks up.

* `Check.Structural`: the codes of the issues of a check are those of the first phase.
* `Check.Accessible`: what the second phase looks up is there.
* `Check.LacksValues`, `Check.Undeclared`: the issue of an enum prop that lists no values, and of a
  prop of an example that the contract does not declare.
* `Check.contract_phases`: what the check finds, by the phase that finds it.
-/

namespace DesignSystem
set_option autoImplicit false

/-! ## Lists of findings -/

namespace Collects
variable {α β γ : Type} {finds : α → β → Prop}

theorem append {as more : List α} {bs others : List β} (first : Collects finds as bs)
    (second : Collects finds more others) : Collects finds (as ++ more) (bs ++ others) := by
  induction first with
  | nil => exact second
  | found here _ ih => exact .found here ih
  | passed nothing _ ih => exact .passed nothing ih

/-- A search that returns on each member of a list, and collects what there is to be found at it,
returns on the list. -/
theorem of_mapM {places : γ → List α} {search : γ → Option (List β)} {items : List γ}
    (each : ∀ item ∈ items, ∃ found, search item = some found ∧
      Collects finds (places item) found) :
    ∃ results, items.mapM search = some results ∧
      Collects finds (items.flatMap places) results.flatten := by
  induction items with
  | nil => exact ⟨[], rfl, .nil⟩
  | cons item items ih =>
    rw [List.forall_mem_cons] at each
    obtain ⟨found, here, first⟩ := each.1
    obtain ⟨results, rest, others⟩ := ih each.2
    refine ⟨found :: results, by simp [List.mapM_cons, here, rest], ?_⟩
    rw [List.flatMap_cons, List.flatten_cons]
    exact first.append others

end Collects

namespace Check

/-! ## Codes of the phases -/

/-- The codes of issues of structure. -/
def structureCodes : List String :=
  ["type", "required", "enum", "pattern", "minItems", "additionalProperties", "exclusiveMinimum"]

/-- The codes of issues of meaning. -/
def meaningCodes : List String := ["enum_missing_values", "unknown_prop"]

theorem codes_disjoint : ∀ code ∈ structureCodes, code ∉ meaningCodes := by decide

/-- The issues that a check finds in parts, or inside objects, are issues of structure. -/
def Structural {α : Type} (check : Pointer → α → List Issue) : Prop :=
  ∀ pointer part, ∀ issue ∈ check pointer part, issue.code ∈ structureCodes

section
variable {α : Type} {check : Pointer → Json → List Issue} {first second : Pointer → α → List Issue}
  {inside : Pointer → Fields → List Issue}

theorem code_of_part {flaw : Flaw} {part : Json} (ofPart : flaw.part? = some part)
    (pointer : Pointer) : (flaw.issue pointer).code ∈ structureCodes := by
  cases flaw with
  | missingField | additionalField | enumWithoutValues | exampleOfUnknownProp => cases ofPart
  | _ => simp [Flaw.issue, Flaw.code, structureCodes]

theorem OfPart.structural (flaws : OfPart check) : Structural check := by
  intro pointer part issue mem
  obtain ⟨flaw, ofPart, rfl⟩ := flaws pointer part issue mem
  exact code_of_part ofPart pointer

theorem Structural.append (left : Structural first) (right : Structural second) :
    Structural fun pointer part => first pointer part ++ second pointer part := by
  intro pointer part
  rw [List.forall_mem_append]
  exact ⟨left pointer part, right pointer part⟩

theorem Structural.optional (structural : Structural check) (name : String) :
    Structural (optional name check) := by
  intro pointer fields issue mem
  unfold Check.optional at mem
  split at mem
  · exact structural _ _ issue mem
  · cases mem

theorem Structural.entries (structural : Structural check) : Structural (entries check) := by
  intro pointer fields issue mem
  obtain ⟨field, -, mem⟩ := List.mem_flatMap.mp mem
  exact structural _ field.2 issue mem

theorem closed_structural (known : List String) : Structural (closed known) := by
  intro pointer fields issue mem
  obtain ⟨field, -, rfl⟩ := List.mem_map.mp mem
  simp [Flaw.issue, Flaw.code, structureCodes]

theorem Structural.object (structural : Structural inside) (required : List String) :
    Structural (object required inside) := by
  intro pointer part issue mem
  cases part with
  | object fields =>
    rcases List.mem_append.mp mem with mem | mem
    · obtain ⟨name, -, rfl⟩ := List.mem_map.mp mem
      simp [Flaw.issue, Flaw.code, structureCodes]
    · exact structural pointer fields issue mem
  | _ =>
    rw [List.mem_singleton.mp mem]
    exact code_of_part rfl pointer

theorem Structural.items (structural : Structural check) (least : Nat) :
    Structural (array least (items check)) := by
  intro pointer part issue mem
  cases part with
  | array parts =>
    rcases List.mem_append.mp mem with mem | mem
    · split at mem
      · rw [List.mem_singleton.mp mem]
        exact code_of_part rfl pointer
      · cases mem
    · obtain ⟨⟨item, position⟩, -, mem⟩ := List.mem_flatMap.mp mem
      exact structural _ item issue mem
  | _ =>
    rw [List.mem_singleton.mp mem]
    exact code_of_part rfl pointer

end

theorem text_structural (name : String) : Structural (optional name string) :=
  string_ofPart.structural.optional name

theorem anyObject_structural : Structural anyObject :=
  Structural.object (fun _ _ _ mem => by cases mem) _

theorem nameAndDescription_structural : Structural nameAndDescription :=
  (text_structural "name").append (text_structural "description")

theorem propDefinition_structural : Structural propDefinition :=
  (((((member_ofPart PropType).structural.optional "type").append
    ((string_ofPart.structural.items 0).optional "values")).append
    (boolean_ofPart.structural.optional "required")).append
    (text_structural "description")).object _

theorem variant_structural : Structural variant :=
  (nameAndDescription_structural.append (anyObject_structural.optional "props")).object _

theorem state_structural : Structural state := nameAndDescription_structural.object _

theorem codeReference_structural : Structural codeReference :=
  ((text_structural "importPath").append (text_structural "exportName")).object _

theorem example_structural : Structural «example» :=
  (nameAndDescription_structural.append (anyObject_structural.optional "props")).object _

/-- All issues of the first phase are issues of structure. -/
theorem contractStructure_structural (document : Json) :
    ∀ issue ∈ contractStructure document, issue.code ∈ structureCodes :=
  ((((((((((closed_structural contractFields).append
    ((text_structural "$schema").append (text_structural "$version"))).append
    (text_structural "description")).append
    (componentName_ofPart.structural.optional "name")).append
    (((member_ofPart Platform).structural.items 1).optional "platformTargets")).append
    ((propDefinition_structural.entries.object _).optional "props")).append
    ((variant_structural.items 0).optional "variants")).append
    ((state_structural.items 0).optional "states")).append
    (codeReference_structural.optional "code")).append
    ((example_structural.items 0).optional "examples")).object _ [] document

/-! ## What the second phase looks up -/

/-- The props that an example supplies. -/
def propsOf : Json → Fields
  | .object entry =>
    match Fields.get? entry "props" with
    | some (.object props) => props
    | _ => []
  | _ => []

/-- The props that examples supply, each with the position of its example, in order. -/
def suppliedProps (examples : List Json) : List (Nat × String) :=
  examples.zipIdx.flatMap fun (entry, position) =>
    (propsOf entry).map fun prop => (position, prop.1)

/-- What the second phase looks up is there: the declared props with the type of each, and, in a
list of examples, the props of each of them. -/
structure Accessible (fields declared : Fields) : Prop where
  props : fields.get? "props" = some (.object declared)
  listed : ∀ part, fields.get? "examples" = some part → part = .array (examplesOf fields)
  types : ∀ prop ∈ declared, ∃ (definition : Fields) (type : PropType),
    prop.2 = .object definition ∧
      definition.get? "type" = some (.string (Vocabulary.word type))
  examples : ∀ entry ∈ examplesOf fields, ∃ supplies props : Fields,
    entry = .object supplies ∧ supplies.get? "props" = some (.object props)

theorem accessible_of_structure {fields : Fields} (shape : Shape.ContractStructure fields) :
    ∃ declared, Accessible fields declared := by
  obtain ⟨_, found, declared, rfl, definitions⟩ := shape.props
  refine ⟨declared, found, fun part listed => ?_, fun prop mem => ?_, fun entry mem => ?_⟩
  · obtain ⟨examples, rfl, -⟩ := shape.examples part listed
    simp [examplesOf, listed]
  · obtain ⟨definition, same, defined⟩ := definitions prop mem
    obtain ⟨_, here, type, -, rfl⟩ := defined.type
    exact ⟨definition, type, same, here⟩
  · obtain ⟨supplies, rfl, supplied⟩ := mem_examplesOf shape.examples entry mem
    obtain ⟨_, here, props, rfl, -⟩ := supplied.props
    exact ⟨supplies, props, rfl, here⟩

/-! ## What the second phase finds -/

/-- The issue of an enum prop that lists no values. -/
inductive LacksValues : String × Json → Issue → Prop where
  | prop {name : String} {definition : Fields}
      (listed : definition.get? "type" = some (.string "enum"))
      (empty : ∀ value values, definition.get? "values" ≠ some (.array (value :: values))) :
      LacksValues (name, .object definition) ⟨.pointer [.field "props", .field name],
        "Enum props must have values array", "enum_missing_values", none⟩

/-- The issue of a prop that the example at a position supplies. -/
inductive Undeclared (declared : Fields) : Nat × String → Issue → Prop where
  | prop {position : Nat} {name : String} (absent : declared.get? name = none) :
      Undeclared declared (position, name)
        ⟨.pointer [.field "examples", .index position, .field "props", .field name],
          s!"Example uses unknown prop: {name}", "unknown_prop", none⟩

theorem LacksValues.code {prop : String × Json} {issue : Issue} (lacks : LacksValues prop issue) :
    issue.code ∈ meaningCodes := by
  cases lacks
  simp [meaningCodes]

theorem Undeclared.code {declared : Fields} {prop : Nat × String} {issue : Issue}
    (undeclared : Undeclared declared prop issue) : issue.code ∈ meaningCodes := by
  cases undeclared
  simp [meaningCodes]

theorem enumIssues?_collects {definition : Fields} {type : PropType} (name : String)
    (typed : definition.get? "type" = some (.string (Vocabulary.word type))) :
    ∃ found, enumIssues? name (.object definition) = some found ∧
      Collects LacksValues [(name, .object definition)] found := by
  cases type with
  | «enum» =>
    replace typed : definition.get? "type" = some (.string "enum") := typed
    by_cases lists : listsValues definition = true
    · obtain ⟨value, values, listed⟩ := listsValues_iff.mp lists
      refine ⟨[], by simp [enumIssues?, fields?, typed, lists], .passed ?_ .nil⟩
      rintro issue ⟨-, empty⟩
      exact empty value values listed
    · refine ⟨[Flaw.enumWithoutValues.issue [.field "props", .field name]],
        by simp [enumIssues?, fields?, typed, lists], .found (.prop typed ?_) .nil⟩
      exact fun value values listed => lists (listsValues_iff.mpr ⟨value, values, listed⟩)
  | _ =>
    refine ⟨[], by simp [enumIssues?, fields?, typed, Vocabulary.word], .passed ?_ .nil⟩
    rintro issue ⟨other, -⟩
    simp [typed, Vocabulary.word] at other

theorem undeclared_collects (declared props : Fields) (position : Nat) :
    Collects (Undeclared declared) (props.map fun prop => (position, prop.1))
      ((props.filter (!declared.has ·.1)).map fun prop =>
        (Flaw.exampleOfUnknownProp prop.1).issue
          [.field "examples", .index position, .field "props", .field prop.1]) := by
  induction props with
  | nil => exact .nil
  | cons prop props ih =>
    cases declares : declared.get? prop.1 with
    | none =>
      rw [List.filter_cons_of_pos (by simp [Fields.has, declares]), List.map_cons, List.map_cons]
      exact .found (.prop declares) ih
    | some definition =>
      rw [List.filter_cons_of_neg (by simp [Fields.has, declares]), List.map_cons]
      refine .passed ?_ ih
      rintro issue ⟨absent⟩
      cases declares.symm.trans absent

theorem exampleIssues?_collects (declared : Fields) {entry props : Fields}
    (found : entry.get? "props" = some (.object props)) (position : Nat) :
    ∃ issues, exampleIssues? declared (.object entry) position = some issues ∧
      Collects (Undeclared declared)
        ((propsOf (.object entry)).map fun prop => (position, prop.1)) issues := by
  refine ⟨_, by simp only [exampleIssues?, fields?, found, bind, Option.bind, pure]; rfl, ?_⟩
  simp only [propsOf, found]
  exact undeclared_collects declared props position

/-- Where what it looks up is there, the second phase returns. -/
theorem contractMeaning?_collects {fields declared : Fields}
    (accessible : Accessible fields declared) :
    ∃ enums supplies, contractMeaning? (.object fields) = some (enums ++ supplies) ∧
      Collects LacksValues declared enums ∧
      Collects (Undeclared declared) (suppliedProps (examplesOf fields)) supplies := by
  have enumsAt : ∀ prop ∈ declared, ∃ found, enumIssues? prop.1 prop.2 = some found ∧
      Collects LacksValues [prop] found := by
    rintro ⟨name, _⟩ mem
    obtain ⟨definition, type, rfl, typed⟩ := accessible.types _ mem
    exact enumIssues?_collects name typed
  have examplesAt : ∀ placed ∈ (examplesOf fields).zipIdx,
      ∃ found, exampleIssues? declared placed.1 placed.2 = some found ∧
        Collects (Undeclared declared)
          ((propsOf placed.1).map fun prop => (placed.2, prop.1)) found := by
    rintro ⟨_, position⟩ mem
    obtain ⟨entry, props, rfl, found⟩ := accessible.examples _ (List.fst_mem_of_mem_zipIdx mem)
    exact exampleIssues?_collects declared found position
  obtain ⟨enums, enumsOk, lacks⟩ := Collects.of_mapM enumsAt
  obtain ⟨examples, examplesOk, undeclared⟩ := Collects.of_mapM examplesAt
  refine ⟨enums.flatten, examples.flatten, ?_, by simpa using lacks, undeclared⟩
  simp [contractMeaning?, fields?, accessible.props, enumsOk, examplesOk]

/-! ## Both phases -/

/-- The check of a contract finds issues of structure only, and then these are all that the first
phase finds; or the first phase finds nothing. Then what the second one looks up is there, and the
issues are those of the enum props that list no values, in the order of the props, and then those of
the props that examples supply without their being declared, in the order of the examples. -/
theorem contract_phases (document : Json) :
    (contractStructure document ≠ [] ∧ contract document = contractStructure document ∧
      ∀ issue ∈ contract document, issue.code ∈ structureCodes ∧ issue.code ∉ meaningCodes) ∨
    (contractStructure document = [] ∧
      (∀ issue ∈ contract document, issue.code ∈ meaningCodes ∧ issue.code ∉ structureCodes) ∧
      ∃ fields declared enums supplies, document = .object fields ∧
        Accessible fields declared ∧ contractMeaning? document = some (enums ++ supplies) ∧
        contract document = enums ++ supplies ∧ Collects LacksValues declared enums ∧
        Collects (Undeclared declared) (suppliedProps (examplesOf fields)) supplies) := by
  by_cases structural : contractStructure document = []
  · obtain ⟨fields, rfl, shape⟩ := (contractStructure_decides document).mp structural
    obtain ⟨declared, accessible⟩ := accessible_of_structure shape
    obtain ⟨enums, supplies, returns, lacks, undeclared⟩ := contractMeaning?_collects accessible
    have finds : contract (.object fields) = enums ++ supplies := by
      rw [contract_of_structure structural, returns, Option.getD_some]
    refine .inr ⟨structural, fun issue mem => ?_, fields, declared, enums, supplies, rfl,
      accessible, returns, finds, lacks, undeclared⟩
    have meaning : issue.code ∈ meaningCodes := by
      rw [finds, List.mem_append] at mem
      rcases mem with mem | mem
      · obtain ⟨prop, -, here⟩ := lacks.exists_of_mem issue mem
        exact here.code
      · obtain ⟨prop, -, here⟩ := undeclared.exists_of_mem issue mem
        exact here.code
    exact ⟨meaning, fun other => codes_disjoint _ other meaning⟩
  · have stops := contract_of_flawed structural
    refine .inl ⟨structural, stops, fun issue mem => ?_⟩
    have code := contractStructure_structural document issue (stops ▸ mem)
    exact ⟨code, codes_disjoint _ code⟩

/-- A contract with an enum prop that lists no values and an example with props that are not
declared. -/
def looseContract : Json :=
  .object [("name", .string "Card"), ("platformTargets", .array [.string "web"]),
    ("props", .object [("tone", .object [("type", .string "enum")]),
      ("size", .object [("type", .string "enum"), ("values", .array [.string "sm"])]),
      ("label", .object [("type", .string "string"), ("values", .array [])])]),
    ("examples", .array [.object [("props", .object [("label", .string "x")])],
      .object [("props", .object [("w/h", .int 2), ("size", .int 3), ("color", .null)])]])]

theorem contract_phases_loose : ∃ fields declared enums supplies,
    looseContract = .object fields ∧ Accessible fields declared ∧
    contract looseContract = enums ++ supplies ∧ Collects LacksValues declared enums ∧
    Collects (Undeclared declared) (suppliedProps (examplesOf fields)) supplies ∧
    (enums ++ supplies).map (fun issue => (issue.place.text, issue.code)) =
      [("/props/tone", "enum_missing_values"), ("/examples/1/props/w~1h", "unknown_prop"),
        ("/examples/1/props/color", "unknown_prop")] := by
  have structural : contractStructure looseContract = [] := by decide +kernel
  have found : (contract looseContract).map (fun issue => (issue.place.text, issue.code)) =
      [("/props/tone", "enum_missing_values"), ("/examples/1/props/w~1h", "unknown_prop"),
        ("/examples/1/props/color", "unknown_prop")] := by decide +kernel
  rcases contract_phases looseContract with ⟨flawed, -⟩ |
    ⟨-, -, fields, declared, enums, supplies, same, accessible, -, finds, lacks, undeclared⟩
  · exact absurd structural flawed
  · exact ⟨fields, declared, enums, supplies, same, accessible, finds, lacks, undeclared,
      finds ▸ found⟩

end Check
end DesignSystem
