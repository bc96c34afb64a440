import DesignSystem.Proofs.Check.TokenShape
import DesignSystem.Usage

/-! # Usages that fit

* `PropDefinition.Admits`: the values of a prop, by its type.
* `ComponentContract.Fits`: a usage supplies the required props, and declared ones only, each with a
  value that its definition admits.
* `Usage.check_valid_iff`: the check of a usage returns and finds no issue in exactly those that
  fit.
* `Usage.checkExamples_valid`: if no example has an issue, each of them fits.
-/

namespace DesignSystem
set_option autoImplicit false

/-! ## Usages -/

/-- The values that a prop takes: those of its type, and of an enum prop the words it lists. -/
def PropDefinition.Admits (prop : PropDefinition) (value : Json) : Prop :=
  match prop.type with
  | .string => value.IsText
  | .number => value.IsFiniteNumber
  | .boolean => value.IsTruth
  | .enum => ∃ word ∈ prop.values.getD [], value = .string word

/-- The props that a usage may supply to a component. -/
structure ComponentContract.Fits (contract : ComponentContract) (supplied : Fields) : Prop where
  required : ∀ entry ∈ contract.props.entries, entry.2.isRequired = true →
    ∃ value, supplied.get? entry.1 = some value
  declared : ∀ prop ∈ supplied, ∃ definition, contract.props.find? prop.1 = some definition ∧
    definition.Admits prop.2

namespace Usage

/-! ## Values -/

theorem conforms_iff {prop : PropDefinition} {value : Json} :
    conforms prop value = true ↔ prop.Admits value := by
  unfold conforms PropDefinition.Admits
  cases prop.type with
  | string => cases value <;> simp [Json.isString, Json.IsText]
  | number => exact Json.isNumber_iff
  | boolean => cases value <;> simp [Json.isBool, Json.IsTruth]
  | «enum» => cases value <;> simp

/-- A number prop whose value it admits does not stop the check. -/
theorem isOversized_of_admits {prop : PropDefinition} {value : Json} (h : prop.Admits value) :
    (prop.type == .number && value.isOversized) = false := by
  unfold PropDefinition.Admits at h
  cases type : prop.type with
  | number =>
    rw [type] at h
    obtain ⟨n, rfl, finite⟩ := h
    obtain ⟨x, converts, -⟩ := (Number.isFinite_iff n).mp finite
    cases n <;> simp [Json.isOversized, converts, Except.toOption]
  | _ => rfl

/-! ## One usage -/

variable {contract : ComponentContract} {supplied : Fields}

theorem missing_eq_nil : missing contract supplied = [] ↔
    ∀ entry ∈ contract.props.entries, entry.2.isRequired = true →
      ∃ value, supplied.get? entry.1 = some value := by
  simp only [missing, ComponentContract.requiredProps, List.map_eq_nil_iff,
    List.filter_eq_nil_iff, List.forall_mem_map, List.mem_filter, Bool.not_eq_true',
    Bool.not_eq_false, Fields.has_iff_get?, and_imp]

theorem suppliedIssues_eq_nil {name : String} {value : Json} :
    suppliedIssues contract name value = [] ↔
      ∃ prop, contract.props.find? name = some prop ∧ prop.Admits value := by
  unfold suppliedIssues
  cases contract.props.find? name with
  | none => simp
  | some prop => simp [← conforms_iff]

theorem issues_eq_nil : issues contract supplied = [] ↔ contract.Fits supplied := by
  rw [issues, List.append_eq_nil_iff, missing_eq_nil, List.flatMap_eq_nil_iff]
  simp only [suppliedIssues_eq_nil]
  exact ⟨fun h => ⟨h.1, h.2⟩, fun h => ⟨h.required, h.declared⟩⟩

theorem oversized_of_fits (fits : contract.Fits supplied) :
    oversized contract supplied = false := by
  rw [oversized, List.any_eq_false]
  intro prop mem
  obtain ⟨definition, found, admits⟩ := fits.declared prop mem
  simp only [found, isOversized_of_admits admits]
  decide

theorem check_valid_iff : (∃ report, check contract (.object supplied) = .ok report ∧
    report.valid = true) ↔ contract.Fits supplied := by
  have valid : (Report.mk (issues contract supplied)).valid = true ↔ contract.Fits supplied := by
    rw [Report.valid, List.isEmpty_iff, issues_eq_nil]
  constructor
  · rintro ⟨report, checks, noIssue⟩
    unfold check at checks
    dsimp only at checks
    split at checks
    · cases checks
    · cases checks
      exact valid.mp noIssue
  · intro fits
    exact ⟨⟨issues contract supplied⟩, by simp [check, oversized_of_fits fits], valid.mpr fits⟩

/-! ## Examples -/

theorem checkExamples_valid {report : Report} (checks : checkExamples contract = .ok report)
    (valid : report.valid = true) :
    ∀ e ∈ contract.examples.getD [], contract.Fits e.props := by
  intro e mem
  unfold checkExamples at checks
  dsimp only at checks
  split at checks
  · cases checks
  · cases checks
    rw [Report.valid, List.isEmpty_iff, List.flatMap_eq_nil_iff] at valid
    obtain ⟨position, placed⟩ := List.mem_iff_getElem?.mp mem
    have noIssue := valid (e, position) (List.mem_zipIdx_iff_getElem?.mpr placed)
    exact issues_eq_nil.mp (List.map_eq_nil_iff.mp noIssue)

theorem checkExamples_of_fits (fits : ∀ e ∈ contract.examples.getD [], contract.Fits e.props) :
    ∃ report, checkExamples contract = .ok report ∧ report.valid = true := by
  have small : (contract.examples.getD []).any (fun e => oversized contract e.props) = false :=
    List.any_eq_false.mpr fun e mem => by simp [oversized_of_fits (fits e mem)]
  refine ⟨_, by rw [checkExamples, if_neg (by simp [small])], ?_⟩
  rw [Report.valid, List.isEmpty_iff, List.flatMap_eq_nil_iff]
  intro placed mem
  rw [List.map_eq_nil_iff, issues_eq_nil]
  exact fits placed.1 (List.fst_mem_of_mem_zipIdx mem)

end Usage
end DesignSystem
