import DesignSystem.Check.Contract
import DesignSystem.Proofs.Check.Shape
import DesignSystem.Proofs.Outcome

/-! # The shape of component contracts

* `Shape.ContractStructure`: the fields of the documents that pass the first phase.
* `Shape.Contract`: of these, the ones that pass the second: enum props list values, and examples
  supply declared props only.
* `Check.contractMeaning?_of_structure`: the second phase returns after the first, and where its
  issues come from.
* `Check.contract_valid_iff`: the check finds no issue in exactly the documents of the shape.
-/

namespace DesignSystem
set_option autoImplicit false

/-! ## Shapes -/

/-- A capital, then letters and digits, all of them ASCII; one line feed may end the name. -/
def Json.IsComponentName (document : Json) : Prop :=
  ∃ (capital : Char) (rest ending : List Char),
    document = .string (.ofChars (capital :: (rest ++ ending))) ∧ capital.isUpper = true ∧
      (∀ c ∈ rest, c.isAlphanum = true) ∧ (ending = [] ∨ ending = ['\n'])

namespace Shape

structure PropDefinition (fields : Fields) : Prop where
  type : fields.Has "type" (Json.IsWord DesignSystem.PropType)
  values : fields.May "values" (Json.IsArray Json.IsText)
  required : fields.May "required" Json.IsTruth
  description : fields.May "description" Json.IsText

structure Variant (fields : Fields) : Prop where
  name : fields.Has "name" Json.IsText
  props : fields.Has "props" (Json.IsObject fun _ => True)
  description : fields.May "description" Json.IsText

structure State (fields : Fields) : Prop where
  name : fields.Has "name" Json.IsText
  description : fields.May "description" Json.IsText

structure CodeReference (fields : Fields) : Prop where
  importPath : fields.Has "importPath" Json.IsText
  exportName : fields.May "exportName" Json.IsText

structure Example (fields : Fields) : Prop where
  props : fields.Has "props" (Json.IsObject fun _ => True)
  name : fields.May "name" Json.IsText
  description : fields.May "description" Json.IsText

structure ContractStructure (fields : Fields) : Prop where
  only : fields.Only ["$schema", "$version", "name", "description", "platformTargets", "props",
    "variants", "states", "code", "examples"]
  schema : fields.May "$schema" Json.IsText
  version : fields.May "$version" Json.IsText
  name : fields.Has "name" Json.IsComponentName
  description : fields.May "description" Json.IsText
  platformTargets : fields.Has "platformTargets" fun part =>
    ∃ targets, part = .array targets ∧ 1 ≤ targets.length ∧
      ∀ target ∈ targets, target.IsWord Platform
  props : fields.Has "props" (Json.IsObject (Fields.Each · (Json.IsObject PropDefinition)))
  variants : fields.May "variants" (Json.IsArray (Json.IsObject Variant))
  states : fields.May "states" (Json.IsArray (Json.IsObject State))
  code : fields.May "code" (Json.IsObject CodeReference)
  examples : fields.May "examples" (Json.IsArray (Json.IsObject Example))

/-- A prop of type enum lists values. -/
def ListsValues (definition : Fields) : Prop :=
  definition.get? "type" = some (.string "enum") →
    ∃ value values, definition.get? "values" = some (.array (value :: values))

structure Contract (fields : Fields) : Prop extends ContractStructure fields where
  enums : fields.May "props" (Json.IsObject (Fields.Each · (Json.IsObject ListsValues)))
  /-- Examples supply props that are declared. -/
  supplied : fields.May "props" (Json.IsObject fun declared =>
    fields.May "examples" (Json.IsArray (Json.IsObject fun entry =>
      entry.May "props" (Json.IsObject fun props =>
        ∀ prop ∈ props, prop.1 ∈ declared.map Prod.fst))))

end Shape

namespace Check

/-! ## The first phase -/

theorem dropFinalNewline_all {text : List Char} :
    (dropFinalNewline text).all Char.isAlphanum = true ↔
      ∃ rest ending, text = rest ++ ending ∧ (∀ c ∈ rest, c.isAlphanum = true) ∧
        (ending = [] ∨ ending = ['\n']) := by
  rw [List.all_eq_true]
  constructor
  · intro all
    unfold dropFinalNewline at all
    split at all
    · next last =>
      obtain ⟨rest, rfl⟩ := List.getLast?_eq_some_iff.mp last
      rw [List.dropLast_concat] at all
      exact ⟨rest, ['\n'], rfl, all, .inr rfl⟩
    · exact ⟨text, [], (List.append_nil _).symm, all, .inl rfl⟩
  · rintro ⟨rest, ending, rfl, all, rfl | rfl⟩
    · have last : rest.getLast? ≠ some '\n' := fun last =>
        absurd (all _ (List.mem_of_getLast? last)) (by decide)
      rwa [List.append_nil, dropFinalNewline, if_neg last]
    · rwa [dropFinalNewline, List.getLast?_concat, if_pos rfl, List.dropLast_concat]

theorem isComponentName_iff {chars : List Char} : isComponentName chars = true ↔
    ∃ capital rest ending, chars = capital :: (rest ++ ending) ∧ capital.isUpper = true ∧
      (∀ c ∈ rest, c.isAlphanum = true) ∧ (ending = [] ∨ ending = ['\n']) := by
  cases chars with
  | nil => simp [isComponentName]
  | cons c chars =>
    rw [isComponentName, Bool.and_eq_true, dropFinalNewline_all]
    constructor
    · rintro ⟨capital, rest, ending, rfl, all, ends⟩
      exact ⟨c, rest, ending, rfl, capital, all, ends⟩
    · rintro ⟨_, rest, ending, same, capital, all, ends⟩
      obtain ⟨rfl, rfl⟩ := List.cons.inj same
      exact ⟨capital, rest, ending, rfl, all, ends⟩

/-- A name holds ASCII capitals, letters, digits and a line feed at most. -/
theorem not_mem_name {capital c : Char} {rest ending : List Char} (upper : capital.isUpper = true)
    (all : ∀ d ∈ rest, d.isAlphanum = true) (ends : ending = [] ∨ ending = ['\n'])
    (other : c.isUpper = false ∧ c.isAlphanum = false ∧ c ≠ '\n') :
    c ∉ capital :: (rest ++ ending) := by
  obtain ⟨notUpper, notAlphanum, notLine⟩ := other
  simp only [List.mem_cons, List.mem_append]
  rintro (rfl | mem | mem)
  · cases upper.symm.trans notUpper
  · cases (all c mem).symm.trans notAlphanum
  · rcases ends with rfl | rfl
    · cases mem
    · exact notLine (List.mem_singleton.mp mem)

theorem componentName_decides : Decides componentName Json.IsComponentName := by
  intro pointer part
  cases part with
  | string name =>
    have named : isComponentName name.chars = true ↔ Json.IsComponentName (.string name) := by
      rw [isComponentName_iff]
      constructor
      · rintro ⟨capital, rest, ending, same, upper, all, ends⟩
        have plain : '\uFFFD' ∉ name.chars := by
          rw [same]
          exact not_mem_name upper all ends (by decide)
        exact ⟨capital, rest, ending, by rw [← same, Text.ofChars_chars plain], upper, all, ends⟩
      · rintro ⟨capital, rest, ending, same, named⟩
        cases same
        exact ⟨capital, rest, ending, Text.chars_ofChars _, named⟩
    simp [componentName, ← named]
  | _ => simp [componentName, Json.IsComponentName]

example : isComponentName "Button1\n".toList = true ∧
    isComponentName "Button1\n\n".toList = false := by decide

theorem propDefinition_decides :
    Decides propDefinition (Json.IsObject Shape.PropDefinition) := by
  refine DecidesInside.object (((((member_decides PropType).optional "type").append
    (string_decides.array.optional "values")).append (boolean_decides.optional "required")).append
    (string_decides.optional "description")) fun fields => ?_
  simp only [List.mem_singleton, forall_eq]
  constructor
  · rintro ⟨there, ⟨⟨type, values⟩, required⟩, description⟩
    exact ⟨Fields.has_and_may.mp ⟨there, type⟩, values, required, description⟩
  · rintro ⟨type, values, required, description⟩
    exact ⟨type.has, ⟨⟨type.may, values⟩, required⟩, description⟩

theorem nameAndDescription_decides : DecidesInside nameAndDescription fun fields =>
    fields.May "name" Json.IsText ∧ fields.May "description" Json.IsText :=
  (string_decides.optional "name").append (string_decides.optional "description")

theorem variant_decides : Decides variant (Json.IsObject Shape.Variant) := by
  refine DecidesInside.object (nameAndDescription_decides.append
    (anyObject_decides.optional "props")) fun fields => ?_
  simp only [List.forall_mem_cons, List.not_mem_nil, false_imp_iff, implies_true, and_true]
  constructor
  · rintro ⟨⟨hasName, hasProps⟩, ⟨name, description⟩, props⟩
    exact ⟨Fields.has_and_may.mp ⟨hasName, name⟩, Fields.has_and_may.mp ⟨hasProps, props⟩,
      description⟩
  · rintro ⟨name, props, description⟩
    exact ⟨⟨name.has, props.has⟩, ⟨name.may, description⟩, props.may⟩

theorem state_decides : Decides state (Json.IsObject Shape.State) := by
  refine DecidesInside.object nameAndDescription_decides fun fields => ?_
  simp only [List.mem_singleton, forall_eq]
  constructor
  · rintro ⟨there, name, description⟩
    exact ⟨Fields.has_and_may.mp ⟨there, name⟩, description⟩
  · rintro ⟨name, description⟩
    exact ⟨name.has, name.may, description⟩

theorem codeReference_decides : Decides codeReference (Json.IsObject Shape.CodeReference) := by
  refine DecidesInside.object ((string_decides.optional "importPath").append
    (string_decides.optional "exportName")) fun fields => ?_
  simp only [List.mem_singleton, forall_eq]
  constructor
  · rintro ⟨there, importPath, exportName⟩
    exact ⟨Fields.has_and_may.mp ⟨there, importPath⟩, exportName⟩
  · rintro ⟨importPath, exportName⟩
    exact ⟨importPath.has, importPath.may, exportName⟩

theorem example_decides : Decides «example» (Json.IsObject Shape.Example) := by
  refine DecidesInside.object (nameAndDescription_decides.append
    (anyObject_decides.optional "props")) fun fields => ?_
  simp only [List.mem_singleton, forall_eq]
  constructor
  · rintro ⟨there, ⟨name, description⟩, props⟩
    exact ⟨Fields.has_and_may.mp ⟨there, props⟩, name, description⟩
  · rintro ⟨props, name, description⟩
    exact ⟨props.has, ⟨name, description⟩, props.may⟩

theorem contractStructure_decides (document : Json) :
    contractStructure document = [] ↔ document.IsObject Shape.ContractStructure := by
  refine DecidesInside.object ((((((((((closed_decides contractFields).append
    ((string_decides.optional "$schema").append (string_decides.optional "$version"))).append
    (string_decides.optional "description")).append
    (componentName_decides.optional "name")).append
    (((member_decides Platform).items 1).optional "platformTargets")).append
    (propDefinition_decides.dictionary.optional "props")).append
    (variant_decides.array.optional "variants")).append
    (state_decides.array.optional "states")).append
    (codeReference_decides.optional "code")).append
    (example_decides.array.optional "examples")) (fun fields => ?_) [] document
  simp only [List.forall_mem_cons, List.not_mem_nil, false_imp_iff, implies_true, and_true]
  constructor
  · rintro ⟨⟨hasName, hasTargets, hasProps⟩, ⟨⟨⟨⟨⟨⟨⟨⟨only, schema, version⟩, description⟩, name⟩,
      targets⟩, props⟩, variants⟩, states⟩, code⟩, examples⟩
    exact ⟨only, schema, version, Fields.has_and_may.mp ⟨hasName, name⟩, description,
      Fields.has_and_may.mp ⟨hasTargets, targets⟩, Fields.has_and_may.mp ⟨hasProps, props⟩,
      variants, states, code, examples⟩
  · rintro ⟨only, schema, version, name, description, targets, props, variants, states, code,
      examples⟩
    exact ⟨⟨name.has, targets.has, props.has⟩, ⟨⟨⟨⟨⟨⟨⟨⟨only, schema, version⟩, description⟩,
      name.may⟩, targets.may⟩, props.may⟩, variants⟩, states⟩, code⟩, examples⟩

/-! ## The second phase -/

/-- The issue of a declared enum prop that lists no values. -/
def IsEnumIssue (declared : Fields) (issue : Issue) : Prop :=
  ∃ (name : String) (definition : Fields), (name, .object definition) ∈ declared ∧
    ¬ Shape.ListsValues definition ∧
      issue = Flaw.enumWithoutValues.issue [.field "props", .field name]

/-- The issue of a prop that an example supplies without its being declared. -/
def IsSupplyIssue (declared : Fields) (examples : List Json) (issue : Issue) : Prop :=
  ∃ (position : Nat) (entry props : Fields), examples[position]? = some (.object entry) ∧
    entry.get? "props" = some (.object props) ∧
      ∃ prop ∈ props, prop.1 ∉ declared.map Prod.fst ∧
        issue = (Flaw.exampleOfUnknownProp prop.1).issue
          [.field "examples", .index position, .field "props", .field prop.1]

theorem listsValues_iff {definition : Fields} : listsValues definition = true ↔
    ∃ value values, definition.get? "values" = some (.array (value :: values)) := by
  unfold listsValues
  split
  · next value values found => simp [found]
  · next other =>
    simp only [Bool.false_eq_true, false_iff, not_exists]
    exact other

theorem enumIssues?_of_shape {definition : Fields} (shape : Shape.PropDefinition definition)
    (name : String) : ∃ issues, enumIssues? name (.object definition) = some issues ∧
      ∀ issue, issue ∈ issues ↔ ¬ Shape.ListsValues definition ∧
        issue = Flaw.enumWithoutValues.issue [.field "props", .field name] := by
  obtain ⟨part, found, type, -, rfl⟩ := shape.type
  cases type with
  | enum =>
    replace found : definition.get? "type" = some (.string "enum") := found
    have lists : Shape.ListsValues definition ↔ listsValues definition = true := by
      rw [listsValues_iff]
      exact ⟨fun lists => lists found, fun values _ => values⟩
    refine ⟨if listsValues definition then []
      else [Flaw.enumWithoutValues.issue [.field "props", .field name]], ?_, fun issue => ?_⟩
    · cases listed : listsValues definition <;> simp [enumIssues?, fields?, found, listed]
    · rw [lists]
      by_cases listed : listsValues definition = true <;> simp [listed]
  | _ =>
    have lists : Shape.ListsValues definition := fun enum => by
      rw [found] at enum
      simp [Vocabulary.word] at enum
    exact ⟨[], by simp [enumIssues?, fields?, found, Vocabulary.word], by simp [lists]⟩

theorem exampleIssues?_of_shape (declared : Fields) {entry props : Fields}
    (found : entry.get? "props" = some (.object props)) (position : Nat) :
    ∃ issues, exampleIssues? declared (.object entry) position = some issues ∧
      ∀ issue, issue ∈ issues ↔ ∃ prop ∈ props, prop.1 ∉ declared.map Prod.fst ∧
        issue = (Flaw.exampleOfUnknownProp prop.1).issue
          [.field "examples", .index position, .field "props", .field prop.1] := by
  refine ⟨(props.filter (!declared.has ·.1)).map fun prop =>
    (Flaw.exampleOfUnknownProp prop.1).issue
      [.field "examples", .index position, .field "props", .field prop.1], ?_, fun issue => ?_⟩
  · simp [exampleIssues?, fields?, found]
  · have undeclared : ∀ prop : String × Json,
        (!declared.has prop.1) = true ↔ prop.1 ∉ declared.map Prod.fst := fun prop => by
      rw [Bool.not_eq_true', ← Bool.not_eq_true, Fields.has_iff_mem]
    rw [List.mem_map]
    simp only [List.mem_filter, undeclared]
    constructor
    · rintro ⟨prop, ⟨mem, new⟩, rfl⟩
      exact ⟨prop, mem, new, rfl⟩
    · rintro ⟨prop, mem, new, rfl⟩
      exact ⟨prop, ⟨mem, new⟩, rfl⟩

theorem get?_examples {fields : Fields} {entry : Json} (mem : entry ∈ examplesOf fields) :
    fields.get? "examples" = some (.array (examplesOf fields)) := by
  unfold examplesOf at mem ⊢
  split at mem
  · next listed found => simp only [found]
  · cases mem

theorem mem_examplesOf {fields : Fields}
    (examples : fields.May "examples" (Json.IsArray (Json.IsObject Shape.Example))) :
    ∀ entry ∈ examplesOf fields, entry.IsObject Shape.Example := by
  intro entry mem
  obtain ⟨_, same, each⟩ := examples _ (get?_examples mem)
  cases same
  exact each entry mem

theorem enums_issues {declared : Fields}
    (definitions : declared.Each (Json.IsObject Shape.PropDefinition)) :
    ∃ results, declared.mapM (fun prop => enumIssues? prop.1 prop.2) = some results ∧
      ∀ issue, issue ∈ results.flatten ↔ IsEnumIssue declared issue := by
  have each : ∀ prop ∈ declared, ∃ issues, enumIssues? prop.1 prop.2 = some issues := by
    intro prop mem
    obtain ⟨definition, same, shape⟩ := definitions prop mem
    obtain ⟨issues, some, -⟩ := enumIssues?_of_shape shape prop.1
    exact ⟨issues, same ▸ some⟩
  obtain ⟨results, all, mem_results⟩ := exists_mapM each
  refine ⟨results, all, fun issue => ?_⟩
  rw [List.mem_flatten]
  constructor
  · rintro ⟨issues, mem, here⟩
    obtain ⟨⟨name, _⟩, propMem, some⟩ := (mem_results issues).mp mem
    obtain ⟨definition, rfl, shape⟩ := definitions _ propMem
    obtain ⟨_, same, spec⟩ := enumIssues?_of_shape shape name
    cases some.symm.trans same
    exact ⟨name, definition, propMem, (spec issue).mp here⟩
  · rintro ⟨name, definition, propMem, isIssue⟩
    obtain ⟨_, same, shape⟩ := definitions _ propMem
    cases same
    obtain ⟨issues, some, spec⟩ := enumIssues?_of_shape shape name
    exact ⟨issues, (mem_results issues).mpr ⟨_, propMem, some⟩, (spec issue).mpr isIssue⟩

theorem examples_issues (declared : Fields) {examples : List Json}
    (entries : ∀ entry ∈ examples, entry.IsObject Shape.Example) :
    ∃ results, examples.zipIdx.mapM (fun (document, position) =>
        exampleIssues? declared document position) = some results ∧
      ∀ issue, issue ∈ results.flatten ↔ IsSupplyIssue declared examples issue := by
  have each : ∀ placed ∈ examples.zipIdx,
      ∃ issues, exampleIssues? declared placed.1 placed.2 = some issues := by
    intro placed mem
    obtain ⟨entry, same, shape⟩ := entries placed.1 (List.fst_mem_of_mem_zipIdx mem)
    obtain ⟨_, found, props, rfl, -⟩ := shape.props
    obtain ⟨issues, some, -⟩ := exampleIssues?_of_shape declared found placed.2
    exact ⟨issues, same ▸ some⟩
  obtain ⟨results, all, mem_results⟩ := exists_mapM each
  refine ⟨results, all, fun issue => ?_⟩
  rw [List.mem_flatten]
  constructor
  · rintro ⟨issues, mem, here⟩
    obtain ⟨⟨document, position⟩, placedMem, some⟩ := (mem_results issues).mp mem
    obtain ⟨entry, rfl, shape⟩ := entries document (List.fst_mem_of_mem_zipIdx placedMem)
    obtain ⟨_, found, props, rfl, -⟩ := shape.props
    obtain ⟨_, same, spec⟩ := exampleIssues?_of_shape declared found position
    cases some.symm.trans same
    exact ⟨position, entry, props, List.mem_zipIdx_iff_getElem?.mp placedMem, found,
      (spec issue).mp here⟩
  · rintro ⟨position, entry, props, placed, found, isIssue⟩
    obtain ⟨issues, some, spec⟩ := exampleIssues?_of_shape declared found position
    exact ⟨issues, (mem_results issues).mpr
      ⟨(.object entry, position), List.mem_zipIdx_iff_getElem?.mpr placed, some⟩,
      (spec issue).mpr isIssue⟩

/-- The second phase returns on the documents that pass the first. Its issues are the enum props
without values and the props of examples that are not declared. -/
theorem contractMeaning?_of_structure {fields declared : Fields}
    (shape : Shape.ContractStructure fields)
    (found : fields.get? "props" = some (.object declared)) :
    ∃ issues, contractMeaning? (.object fields) = some issues ∧ ∀ issue, issue ∈ issues ↔
      IsEnumIssue declared issue ∨ IsSupplyIssue declared (examplesOf fields) issue := by
  obtain ⟨_, here, _, rfl, definitions⟩ := shape.props
  cases found.symm.trans here
  obtain ⟨enums, enumsOk, mem_enums⟩ := enums_issues definitions
  obtain ⟨examples, examplesOk, mem_examples⟩ :=
    examples_issues declared (mem_examplesOf shape.examples)
  refine ⟨enums.flatten ++ examples.flatten, ?_, fun issue => ?_⟩
  · simp [contractMeaning?, fields?, found, enumsOk, examplesOk]
  · rw [List.mem_append, mem_enums, mem_examples]

/-! ## Both phases -/

theorem contract_of_structure {document : Json} (structural : contractStructure document = []) :
    contract document = (contractMeaning? document).getD [] := by
  rw [contract, structural]

theorem contract_of_flawed {document : Json} (flawed : contractStructure document ≠ []) :
    contract document = contractStructure document := by
  unfold contract
  split
  · next structural => exact absurd structural flawed
  · rfl

theorem structure_of_contract {document : Json} (passes : contract document = []) :
    contractStructure document = [] := by
  unfold contract at passes
  split at passes
  · next structural => exact structural
  · exact passes

theorem noEnumIssue_iff {declared : Fields}
    (definitions : declared.Each (Json.IsObject Shape.PropDefinition)) :
    (∀ issue, ¬ IsEnumIssue declared issue) ↔ declared.Each (Json.IsObject Shape.ListsValues) := by
  constructor
  · rintro none ⟨name, document⟩ mem
    obtain ⟨definition, rfl, -⟩ := definitions _ mem
    refine ⟨definition, rfl, Classical.byContradiction fun lacks => ?_⟩
    exact none _ ⟨name, definition, mem, lacks, rfl⟩
  · rintro each issue ⟨name, definition, mem, lacks, -⟩
    obtain ⟨_, same, lists⟩ := each _ mem
    cases same
    exact lacks lists

theorem noSupplyIssue_iff (declared : Fields) {examples : List Json}
    (entries : ∀ entry ∈ examples, entry.IsObject Shape.Example) :
    (∀ issue, ¬ IsSupplyIssue declared examples issue) ↔
      ∀ entry ∈ examples, entry.IsObject fun fields => fields.May "props"
        (Json.IsObject fun props => ∀ prop ∈ props, prop.1 ∈ declared.map Prod.fst) := by
  constructor
  · intro none entry mem
    obtain ⟨position, placed⟩ := List.mem_iff_getElem?.mp mem
    obtain ⟨fields, rfl, shape⟩ := entries entry mem
    obtain ⟨_, found, props, rfl, -⟩ := shape.props
    refine ⟨fields, rfl, fun part here => ?_⟩
    cases found.symm.trans here
    refine ⟨props, rfl, fun prop propMem => Classical.byContradiction fun new => ?_⟩
    exact none _ ⟨position, fields, props, placed, found, prop, propMem, new, rfl⟩
  · rintro each issue ⟨position, fields, props, placed, found, prop, mem, new, -⟩
    obtain ⟨_, same, declares⟩ := each _ (List.mem_of_getElem? placed)
    cases same
    obtain ⟨_, same, declares⟩ := declares _ found
    cases same
    exact new (declares prop mem)

theorem meaning_iff {fields declared : Fields} (shape : Shape.ContractStructure fields)
    (found : fields.get? "props" = some (.object declared)) :
    (contractMeaning? (.object fields)).getD [] = [] ↔ Shape.Contract fields := by
  obtain ⟨_, here, _, rfl, definitions⟩ := shape.props
  cases found.symm.trans here
  have entries := mem_examplesOf shape.examples
  obtain ⟨issues, returns, spec⟩ := contractMeaning?_of_structure shape found
  rw [returns, Option.getD_some, List.eq_nil_iff_forall_not_mem]
  simp only [spec, not_or, forall_and, noEnumIssue_iff definitions,
    noSupplyIssue_iff declared entries]
  constructor
  · rintro ⟨enums, supplied⟩
    refine ⟨shape, fun part here => ?_, fun part here => ?_⟩
    · cases found.symm.trans here
      exact ⟨declared, rfl, enums⟩
    · cases found.symm.trans here
      refine ⟨declared, rfl, fun part listed => ?_⟩
      obtain ⟨examples, rfl, -⟩ := shape.examples part listed
      have same : examplesOf fields = examples := by simp [examplesOf, listed]
      exact ⟨examples, rfl, same ▸ supplied⟩
  · rintro ⟨-, enums, supplied⟩
    refine ⟨?_, fun entry mem => ?_⟩
    · obtain ⟨_, same, each⟩ := enums _ found
      cases same
      exact each
    · obtain ⟨_, same, each⟩ := supplied _ found
      cases same
      obtain ⟨_, same, each⟩ := each _ (get?_examples mem)
      cases same
      exact each entry mem

theorem contract_decides (document : Json) :
    contract document = [] ↔ document.IsObject Shape.Contract := by
  constructor
  · intro passes
    have structural := structure_of_contract passes
    obtain ⟨fields, rfl, shape⟩ := (contractStructure_decides document).mp structural
    obtain ⟨_, found, declared, rfl, -⟩ := shape.props
    rw [contract_of_structure structural, meaning_iff shape found] at passes
    exact ⟨fields, rfl, passes⟩
  · rintro ⟨fields, rfl, shape⟩
    have structural := (contractStructure_decides (.object fields)).mpr
      ⟨fields, rfl, shape.toContractStructure⟩
    obtain ⟨_, found, declared, rfl, -⟩ := shape.props
    rw [contract_of_structure structural, meaning_iff shape.toContractStructure found]
    exact shape

/-- The check finds no issue in a document exactly if it is a contract. -/
theorem contract_valid_iff (document : Json) :
    (Report.mk (contract document)).valid = true ↔ document.IsObject Shape.Contract := by
  rw [Report.valid, List.isEmpty_iff, contract_decides]

end Check
end DesignSystem
