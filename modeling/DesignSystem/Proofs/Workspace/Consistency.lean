import DesignSystem.Proofs.Check.ContractShape
import DesignSystem.Proofs.Model.Origin
import DesignSystem.Proofs.Usage
import DesignSystem.Proofs.Workspace.Validity
import DesignSystem.Proofs.Workspace.Write

/-! # Contracts are consistent

* `ComponentContract.Consistent`: a contract has a target, its enum props list values, and each of
  its examples is a valid usage of it.
* `Schema.consistent_of_build`: so is every contract that a document builds.
* `Workspace.contract_consistent`: so is every contract that is read or has been written.
-/

namespace DesignSystem
set_option autoImplicit false

structure ComponentContract.Consistent (contract : ComponentContract) : Prop where
  targets : contract.platformTargets ≠ []
  enums : ∀ entry ∈ contract.props.entries, entry.2.type = .enum →
    ∃ word words, entry.2.values = some (word :: words)
  examples : ∀ e ∈ contract.examples.getD [],
    (∃ report, Usage.check contract (.object e.props) = .ok report ∧ report.valid = true) ∧
      contract.Fits e.props

/-! ## Props -/

/-- What lists values as a document lists them as a prop. -/
theorem PropDefinition.values_of_decode {pointer : Pointer} {definition : Fields}
    {prop : PropDefinition} (decodes : decode pointer (.object definition) = .ok prop)
    (shape : Shape.PropDefinition definition) (lists : Shape.ListsValues definition)
    (isEnum : prop.type = .enum) : ∃ word words, prop.values = some (word :: words) := by
  obtain ⟨_, same, decodedType, decodedValues⟩ := PropDefinition.decode_eq_ok decodes
  cases same
  obtain ⟨part, found, -⟩ := shape.type
  rw [Decoded.required_of_get? found] at decodedType
  have word := Decoded.member_eq_ok decodedType
  rw [isEnum] at word
  subst word
  obtain ⟨value, values, listed⟩ := lists found
  rw [Decoded.optional_of_get? listed (by simp)] at decodedValues
  obtain ⟨words, decodedWords, same⟩ := Decoded.map_eq_ok.mp decodedValues
  obtain ⟨_, items, each⟩ := Decoded.array_eq_ok decodedWords
  cases items
  cases each with
  | cons => exact ⟨_, _, same.symm⟩

/-! ## Contracts -/

namespace ComponentContract
variable {fields : Fields} {contract : ComponentContract}

theorem targets_of_decode (decodes : decode (.object fields) = .ok contract)
    (shape : Shape.ContractStructure fields) : contract.platformTargets ≠ [] := by
  obtain ⟨_, same, decodedTargets, -⟩ := decode_eq_ok decodes
  cases same
  obtain ⟨_, found, targets, rfl, atLeastOne, -⟩ := shape.platformTargets
  rw [Decoded.required_of_get? found] at decodedTargets
  obtain ⟨_, same, each⟩ := Decoded.array_eq_ok decodedTargets
  cases same
  intro none
  rw [none] at each
  rw [← each.length_eq] at atLeastOne
  exact absurd atLeastOne (by decide)

theorem enums_of_decode (decodes : decode (.object fields) = .ok contract)
    (shape : Shape.Contract fields) : ∀ entry ∈ contract.props.entries, entry.2.type = .enum →
      ∃ word words, entry.2.values = some (word :: words) := by
  obtain ⟨_, same, -, decodedProps⟩ := decode_eq_ok decodes
  cases same
  obtain ⟨_, found, declared, rfl, definitions⟩ := shape.props
  obtain ⟨_, same, enums⟩ := shape.enums _ found
  cases same
  rw [Decoded.defaulted_of_get? found] at decodedProps
  obtain ⟨_, same, origin⟩ := Decoded.dict_eq_ok decodedProps
  cases same
  rintro ⟨name, prop⟩ mem isEnum
  obtain ⟨⟨_, document⟩, listed, -, place, decoded⟩ := origin _ mem
  obtain ⟨definition, rfl, definitionShape⟩ := definitions _ listed
  obtain ⟨_, same, lists⟩ := enums _ listed
  cases same
  exact PropDefinition.values_of_decode decoded definitionShape lists isEnum

end ComponentContract

/-- The examples of a contract without issues are checked as usages of it. -/
theorem Schema.checkContract_valid {document : Json} {contract : ComponentContract}
    {report : Report} (checks : checkContract document = .ok report)
    (valid : report.valid = true) (decodes : ComponentContract.decode document = .ok contract) :
    Check.contract document = [] ∧ Usage.checkExamples contract = .ok report := by
  unfold checkContract at checks
  split at checks
  · next passes =>
    rw [decodes] at checks
    exact ⟨passes, checks⟩
  · next issues found =>
    cases checks
    exact absurd (List.isEmpty_iff.mp valid) found

theorem Schema.consistent_of_build {document : Json} {contract : ComponentContract}
    (builds : Schema.contract.build document = .ok (.ok contract)) : contract.Consistent := by
  obtain ⟨⟨report, checks, valid⟩, decodes⟩ := Schema.build_eq_ok builds
  obtain ⟨passes, examples⟩ := checkContract_valid checks valid decodes
  obtain ⟨fields, rfl, shape⟩ := (Check.contract_decides document).mp passes
  refine ⟨ComponentContract.targets_of_decode decodes shape.toContractStructure,
    ComponentContract.enums_of_decode decodes shape, fun e mem => ?_⟩
  have fits := Usage.checkExamples_valid examples valid e mem
  exact ⟨Usage.check_valid_iff.mpr fits, fits⟩

/-! ## The store -/

namespace Workspace

/-- Every contract that is read is consistent, and so is the contract that has been written, which
is the one that is read then. -/
theorem contract_consistent (workspace : Workspace) (disk : Disk) (name : String) :
    (∀ contract : ComponentContract, workspace.read disk (.contract name) = .ok contract →
      contract.Consistent) ∧
    ∀ (argument : Argument (.contract name)) (path : Path) (after : Disk),
      workspace.write disk (.contract name) argument = (.ok path, after) →
      ∃ contract : ComponentContract, ComponentContract.decode argument.document = .ok contract ∧
        workspace.read after (.contract name) = .ok contract ∧ contract.Consistent := by
  refine ⟨fun contract reads => ?_, fun argument path after writes => ?_⟩
  · obtain ⟨bytes, document, -, -, builds⟩ := Slot.read_eq_ok.mp reads
    exact Schema.consistent_of_build builds
  · rw [write_eq rfl] at writes
    obtain ⟨-, wrote, unicode, writable, contract, builds⟩ := Slot.write_eq_ok writes
    have builds' := Slot.build_eq_ok.mp builds
    exact ⟨contract, (Schema.build_eq_ok builds').2,
      Slot.read_of_wrote argument.distinct unicode writable builds wrote,
      Schema.consistent_of_build builds'⟩

/-- How many examples the contract has that a document builds. -/
def exampleCount (document : Json) : Nat :=
  match ComponentContract.decode document with
  | .ok contract => (contract.examples.getD []).length
  | .rejected _ => 0

theorem write_starterButton : ∃ path after,
    Workspace.write ⟨.ofText "library"⟩ .empty (.contract "Button")
      (.raw Starter.button starter_distinct.2.2.2.2) = (.ok path, after) :=
  Outcome.exists_of_fst_isOk (by decide +kernel)

theorem contract_consistent_button : ∃ path after,
    Workspace.write ⟨.ofText "library"⟩ .empty (.contract "Button")
      (.raw Starter.button starter_distinct.2.2.2.2) = (.ok path, after) ∧
    ∃ contract : ComponentContract, ComponentContract.decode Starter.button = .ok contract ∧
      Workspace.read ⟨.ofText "library"⟩ after (.contract "Button") = .ok contract ∧
      contract.Consistent ∧ (contract.examples.getD []).length = 3 := by
  obtain ⟨path, after, writes⟩ := write_starterButton
  obtain ⟨contract, decodes, reads, -⟩ := (contract_consistent _ _ _).2 _ _ _ writes
  have examples : exampleCount Starter.button = 3 := by decide +kernel
  rw [exampleCount, show ComponentContract.decode Starter.button = .ok contract from decodes]
    at examples
  exact ⟨path, after, writes, contract, decodes, reads, (contract_consistent _ _ _).1 _ reads,
    examples⟩

end Workspace
end DesignSystem
