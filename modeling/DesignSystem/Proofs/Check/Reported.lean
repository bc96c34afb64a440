import DesignSystem.Proofs.Check.ContractCause
import DesignSystem.Proofs.Json.Finite

/-! # What issues report

The value of an issue is a part of the document that was looked at, or a name in it. So it has every
property that documents pass on to their parts.

* `Issue.Reports`: the value of an issue, if there is one, has a property.
* `Check.Reports`: so have the values of all issues of a check.
* `Usage.check_reports`, `Usage.checkExamples_reports`: those of usages of a component.
-/

namespace DesignSystem
set_option autoImplicit false

namespace Issue

/-- The value that an issue reports has a property. -/
def Reports (holds : Json → Prop) (issue : Issue) : Prop :=
  ∀ value, issue.value = some value → holds value

theorem reported_eq_some {part value : Json} (h : reported part = some value) : value = part := by
  unfold reported at h
  split at h
  · cases h
  · exact (Option.some.inj h).symm

end Issue

variable {holds : Json → Prop}

namespace Flaw

theorem reports_part {flaw : Flaw} {part : Json} (ofPart : flaw.part? = some part)
    (h : holds part) (pointer : Pointer) : (flaw.issue pointer).Reports holds := by
  intro value found
  have whole : flaw.value = Issue.reported part := by
    cases flaw <;> simp_all [part?, Flaw.value]
  rw [Issue.reported_eq_some (whole.symm.trans found)]
  exact h

end Flaw

/-! ## Checks -/

namespace Check

/-- The issues that a check finds in a part with a property report values with it. -/
def Reports (holds : Json → Prop) (check : Pointer → Json → List Issue) : Prop :=
  ∀ pointer part, holds part → ∀ issue ∈ check pointer part, issue.Reports holds

def ReportsInside (holds : Json → Prop) (inside : Pointer → Fields → List Issue) : Prop :=
  ∀ pointer fields, holds (.object fields) → ∀ issue ∈ inside pointer fields, issue.Reports holds

theorem OfPart.reports {check : Pointer → Json → List Issue} (flaws : OfPart check) :
    Reports holds check := by
  intro pointer part h issue mem
  obtain ⟨flaw, ofPart, rfl⟩ := flaws pointer part issue mem
  exact flaw.reports_part ofPart h pointer

section
variable {check : Pointer → Json → List Issue} {inside others : Pointer → Fields → List Issue}

theorem ReportsInside.append (first : ReportsInside holds inside)
    (second : ReportsInside holds others) :
    ReportsInside holds fun pointer fields => inside pointer fields ++ others pointer fields := by
  intro pointer fields h issue mem
  rcases List.mem_append.mp mem with mem | mem
  · exact first pointer fields h issue mem
  · exact second pointer fields h issue mem

theorem ReportsInside.object (inner : ReportsInside holds inside) (required : List String) :
    Reports holds (object required inside) := by
  intro pointer part h issue mem
  cases part with
  | object fields =>
    rcases List.mem_append.mp mem with mem | mem
    · obtain ⟨name, -, rfl⟩ := List.mem_map.mp mem
      intro value found
      cases found
    · exact inner pointer fields h issue mem
  | _ =>
    rw [List.mem_singleton.mp mem]
    exact Flaw.reports_part rfl h pointer

variable (hereditary : Json.Hereditary holds)

include hereditary

theorem Reports.optional (reports : Reports holds check) (name : String) :
    ReportsInside holds (optional name check) := by
  intro pointer fields h issue mem
  unfold Check.optional at mem
  split at mem
  · next part found => exact reports _ part (hereditary.get? h found) issue mem
  · cases mem

theorem Reports.entries (reports : Reports holds check) :
    ReportsInside holds (entries check) := by
  intro pointer fields h issue mem
  obtain ⟨field, listed, mem⟩ := List.mem_flatMap.mp mem
  exact reports _ field.2 (hereditary.field h field listed) issue mem

theorem closed_reports (known : List String) : ReportsInside holds (closed known) := by
  intro pointer fields _ issue mem
  obtain ⟨field, -, rfl⟩ := List.mem_map.mp mem
  intro value found
  cases found
  exact hereditary.text field.1

theorem Reports.items (reports : Reports holds check) (least : Nat) :
    Reports holds (array least (items check)) := by
  intro pointer part h issue mem
  cases part with
  | array parts =>
    rcases List.mem_append.mp mem with mem | mem
    · split at mem
      · rw [List.mem_singleton.mp mem]
        exact Flaw.reports_part rfl h pointer
      · cases mem
    · obtain ⟨⟨item, position⟩, placed, mem⟩ := List.mem_flatMap.mp mem
      have found := List.mem_zipIdx_iff_getElem?.mp placed
      exact reports _ item (hereditary.item h item (List.mem_of_getElem? found)) issue mem
  | _ =>
    rw [List.mem_singleton.mp mem]
    exact Flaw.reports_part rfl h pointer

end

/-! ## Kinds of documents -/

section
variable (hereditary : Json.Hereditary holds)

include hereditary

theorem text_reports (name : String) : ReportsInside holds (optional name string) :=
  string_ofPart.reports.optional hereditary name

theorem word_reports (α : Type) [Vocabulary α] (name : String) :
    ReportsInside holds (optional name (member α)) :=
  (member_ofPart α).reports.optional hereditary name

theorem schemaAndVersion_reports : ReportsInside holds schemaAndVersion :=
  (text_reports hereditary _).append (text_reports hereditary _)

theorem coreTokens_reports : Reports holds fun _ => coreTokens := by
  have token : Reports holds coreToken :=
    (((coreValue_ofPart.reports.optional hereditary _).append
      (word_reports hereditary Category _)).append (text_reports hereditary _)).object _
  have tokens := ((token.entries hereditary).object []).optional hereditary "tokens"
  exact fun _ => ((((closed_reports hereditary _).append
    (schemaAndVersion_reports hereditary)).append tokens).object _) []

theorem semanticTokens_reports : Reports holds fun _ => semanticTokens := by
  have token : Reports holds semanticToken :=
    ((text_reports hereditary _).append (text_reports hereditary _)).object _
  have tokens := ((token.entries hereditary).object []).optional hereditary "tokens"
  exact fun _ => (((((closed_reports hereditary _).append
    (schemaAndVersion_reports hereditary)).append (word_reports hereditary Theme _)).append
    tokens).object _) []

theorem platformRules_reports : Reports holds fun _ => platformRules := by
  have rule : Reports holds platformRule :=
    (((text_reports hereditary _).append (word_reports hereditary Transform _)).append
      (remBase_ofPart.reports.optional hereditary _)).object _
  have rules := (rule.items hereditary 0).optional hereditary "rules"
  exact fun _ => (((((closed_reports hereditary _).append
    (schemaAndVersion_reports hereditary)).append (word_reports hereditary Platform _)).append
    rules).object _) []

theorem systemManifest_reports : Reports holds fun _ => systemManifest := by
  have source : Reports holds componentSource :=
    ((word_reports hereditary SourceType _).append (text_reports hereditary _)).object _
  exact fun _ => ((((((((text_reports hereditary _).append (text_reports hereditary _)).append
    (text_reports hereditary _)).append (text_reports hereditary _)).append
    (word_reports hereditary Platform _)).append (word_reports hereditary Theme _)).append
    (source.optional hereditary _)).object _) []

theorem contractStructure_reports : Reports holds fun _ => contractStructure := by
  have named : ReportsInside holds nameAndDescription :=
    (text_reports hereditary _).append (text_reports hereditary _)
  have props : ReportsInside holds (optional "props" anyObject) :=
    (ReportsInside.object (fun _ _ _ _ mem => by cases mem) _).optional hereditary _
  have definition : Reports holds propDefinition :=
    ((((word_reports hereditary PropType _).append
      ((string_ofPart.reports.items hereditary 0).optional hereditary _)).append
      (boolean_ofPart.reports.optional hereditary _)).append (text_reports hereditary _)).object _
  have variants : Reports holds variant := (named.append props).object _
  have states : Reports holds state := named.object _
  have examples : Reports holds «example» := (named.append props).object _
  have code : Reports holds codeReference :=
    ((text_reports hereditary _).append (text_reports hereditary _)).object _
  exact fun _ => (((((((((((closed_reports hereditary _).append
    (schemaAndVersion_reports hereditary)).append (text_reports hereditary _)).append
    (componentName_ofPart.reports.optional hereditary _)).append
    (((member_ofPart Platform).reports.items hereditary 1).optional hereditary _)).append
    (((definition.entries hereditary).object _).optional hereditary _)).append
    ((variants.items hereditary 0).optional hereditary _)).append
    ((states.items hereditary 0).optional hereditary _)).append
    (code.optional hereditary _)).append
    ((examples.items hereditary 0).optional hereditary _)).object _) []

/-- The second phase reports no values. -/
theorem contract_reports : Reports holds fun _ => contract := by
  intro pointer document h issue mem
  change issue ∈ contract document at mem
  by_cases structural : contractStructure document = []
  · obtain ⟨fields, rfl, shape⟩ := (contractStructure_decides document).mp structural
    obtain ⟨_, foundProps, declared, rfl, -⟩ := shape.props
    obtain ⟨issues, returns, spec⟩ := contractMeaning?_of_structure shape foundProps
    rw [contract_of_structure structural, returns, Option.getD_some] at mem
    intro value found
    rcases (spec issue).mp mem with ⟨_, _, -, -, rfl⟩ | ⟨_, _, _, -, -, _, -, -, rfl⟩ <;>
      cases found
  · have same : contract document = contractStructure document := by
      unfold contract
      split
      · next passes => exact absurd passes structural
      · rfl
    rw [same] at mem
    exact contractStructure_reports hereditary pointer document h issue mem

end
end Check

/-! ## Usages -/

namespace Usage

theorem flaw_reports {flaw : UsageFlaw} {part : Json} (reports : flaw.part? = some part)
    (h : holds part) (pointer : Pointer) : (flaw.issue pointer).Reports holds := by
  intro value found
  have whole : flaw.value = Issue.reported part := by
    cases flaw <;> simp_all [UsageFlaw.part?, UsageFlaw.value]
  rw [Issue.reported_eq_some (whole.symm.trans found)]
  exact h

variable (hereditary : Json.Hereditary holds) {contract : ComponentContract}

include hereditary

theorem issues_report {supplied : Fields} (h : holds (.object supplied)) :
    ∀ issue ∈ issues contract supplied, issue.Reports holds := by
  intro issue mem
  rcases List.mem_append.mp mem with mem | mem
  · obtain ⟨name, -, rfl⟩ := List.mem_map.mp mem
    intro value found
    cases found
  · obtain ⟨prop, listed, mem⟩ := List.mem_flatMap.mp mem
    unfold suppliedIssues at mem
    split at mem
    · rw [List.mem_singleton.mp mem]
      intro value found
      cases found
    · next definition _ =>
      split at mem
      · cases mem
      · rw [List.mem_singleton.mp mem]
        exact flaw_reports (mismatch_part? definition prop.2)
          (hereditary.field h prop listed) _

theorem check_reports {props : Json} {report : Report} (h : holds props)
    (checks : check contract props = .ok report) :
    ∀ issue ∈ report.issues, issue.Reports holds := by
  unfold check at checks
  split at checks
  · split at checks
    · cases checks
    · cases checks
      exact issues_report hereditary h
  · cases checks
    intro issue mem
    rw [List.mem_singleton.mp mem]
    exact flaw_reports rfl h _

theorem checkExamples_reports {report : Report}
    (h : ∀ e ∈ contract.examples.getD [], holds (.object e.props))
    (checks : checkExamples contract = .ok report) :
    ∀ issue ∈ report.issues, issue.Reports holds := by
  dsimp only [checkExamples] at checks
  split at checks
  · cases checks
  · cases checks
    intro issue mem
    obtain ⟨⟨e, position⟩, placed, mem⟩ := List.mem_flatMap.mp mem
    obtain ⟨issue, found, rfl⟩ := List.mem_map.mp mem
    have listed := List.mem_of_getElem? (List.mem_zipIdx_iff_getElem?.mp placed)
    have reports := issues_report hereditary (h e listed) issue found
    unfold relocate
    split <;> exact reports

end Usage
end DesignSystem
