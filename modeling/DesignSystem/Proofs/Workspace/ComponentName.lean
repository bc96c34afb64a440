import DesignSystem.Proofs.Model.SettledContract
import DesignSystem.Proofs.Workspace.Consistency

/-! # Names of stored components

The pattern of names ends in an anchor that lets one line feed follow.

* `IsIdentifier`: a capital, then letters and digits.
* `Json.isComponentName_iff`: the check passes identifiers, alone or with one line feed after them.
* `Workspace.contract_identifier`: so are the names of all contracts that are read or have been
  written.
-/

namespace DesignSystem
set_option autoImplicit false

/-- An ASCII capital, and then nothing but ASCII letters and digits. -/
def IsIdentifier (name : Text) : Prop :=
  ∃ (capital : Char) (rest : List Char), name = .ofChars (capital :: rest) ∧
    capital.isUpper = true ∧ ∀ c ∈ rest, c.isAlphanum = true

/-- The names that pass the check. -/
theorem Json.isComponentName_iff {name : Text} : IsComponentName (.string name) ↔
    IsIdentifier name ∨
      ∃ identifier, IsIdentifier identifier ∧ name = identifier ++ Text.ofString "\n" := by
  constructor
  · rintro ⟨capital, rest, ending, same, upper, all, ends⟩
    obtain rfl := Json.string.inj same
    rcases ends with rfl | rfl
    · exact .inl ⟨capital, rest, by simp, upper, all⟩
    · exact .inr ⟨.ofChars (capital :: rest), ⟨capital, rest, rfl, upper, all⟩, by
        ext1
        simp [Text.ofString]⟩
  · rintro (⟨capital, rest, rfl, upper, all⟩ | ⟨identifier, ⟨capital, rest, rfl, upper, all⟩, rfl⟩)
    · exact ⟨capital, rest, [], by simp, upper, all, .inl rfl⟩
    · refine ⟨capital, rest, ['\n'], congrArg Json.string ?_, upper, all, .inr rfl⟩
      ext1
      simp [Text.ofString]

/-! ## Contracts -/

/-- The name of a decoded contract is the one its document gives. -/
theorem ComponentContract.get?_name_of_decode {fields : Fields} {contract : ComponentContract}
    (decodes : decode (.object fields) = .ok contract) (shape : Shape.ContractStructure fields) :
    fields.get? "name" = some (.string contract.name) := by
  obtain ⟨_, found, capital, rest, ending, rfl, -⟩ := shape.name
  have decodesName := (name_and_code_of_decode decodes).1
  rw [Decoded.required_of_get? found] at decodesName
  rw [found, Decoded.ok.inj decodesName]

/-- A document that builds a contract is an object with the name of the contract, which passes the
check. -/
theorem Schema.name_of_build {document : Json} {contract : ComponentContract}
    (builds : Schema.contract.build document = .ok (.ok contract)) :
    ∃ fields : Fields, document = .object fields ∧
      fields.get? "name" = some (.string contract.name) ∧
      Json.IsComponentName (.string contract.name) := by
  obtain ⟨⟨report, checks, valid⟩, decodes⟩ := Schema.build_eq_ok builds
  obtain ⟨passes, -⟩ := checkContract_valid checks valid decodes
  obtain ⟨fields, rfl, shape⟩ := (Check.contract_decides document).mp passes
  exact ⟨fields, rfl, ComponentContract.get?_name_of_decode decodes shape.toContractStructure,
    ComponentContract.componentName_of_decode decodes shape.toContractStructure⟩

/-! ## The store -/

namespace Workspace

/-- The name in every contract that is read is an identifier, or one with a line feed after it, and
so is the name in the file of every contract that has been written, under which it is read then. -/
theorem contract_identifier (workspace : Workspace) (disk : Disk) (name : String) :
    (∀ contract : ComponentContract, workspace.read disk (.contract name) = .ok contract →
      IsIdentifier contract.name ∨
        ∃ identifier, IsIdentifier identifier ∧
          contract.name = identifier ++ Text.ofString "\n") ∧
    ∀ (argument : Argument (.contract name)) (path : Path) (after : Disk),
      workspace.write disk (.contract name) argument = (.ok path, after) →
      ∃ (bytes : Bytes) (fields : Fields) (contract : ComponentContract),
        after.readFile path = .ok bytes ∧ Slot.parse bytes = .ok (.object fields) ∧
        argument.document = .object fields ∧
        workspace.read after (.contract name) = .ok contract ∧
        fields.get? "name" = some (.string contract.name) ∧
        (IsIdentifier contract.name ∨
          ∃ identifier, IsIdentifier identifier ∧
            contract.name = identifier ++ Text.ofString "\n") := by
  refine ⟨fun contract reads => ?_, fun argument path after writes => ?_⟩
  · obtain ⟨bytes, document, -, -, builds⟩ := Slot.read_eq_ok.mp reads
    obtain ⟨-, -, -, named⟩ := Schema.name_of_build builds
    exact Json.isComponentName_iff.mp named
  · rw [write_eq rfl] at writes
    obtain ⟨rfl, wrote, unicode, writable, contract, builds⟩ := Slot.write_eq_ok writes
    obtain ⟨fields, isObject, stored, named⟩ := Schema.name_of_build (Slot.build_eq_ok.mp builds)
    refine ⟨Slot.bytes argument.document, fields, contract, wrote.content, ?_, isObject,
      Slot.read_of_wrote argument.distinct unicode writable builds wrote, stored,
      Json.isComponentName_iff.mp named⟩
    rw [Slot.parse_bytes argument.distinct unicode writable, isObject]

theorem contract_identifier_button : ∃ path after,
    Workspace.write ⟨.ofText "library"⟩ .empty (.contract "Button")
      (.raw Starter.button starter_distinct.2.2.2.2) = (.ok path, after) ∧
    ∃ contract : ComponentContract,
      Workspace.read ⟨.ofText "library"⟩ after (.contract "Button") = .ok contract ∧
      contract.name = "Button" ∧ IsIdentifier contract.name := by
  obtain ⟨path, after, writes⟩ := write_starterButton
  obtain ⟨_, _, contract, -, -, same, reads, stored, -⟩ :=
    (contract_identifier _ _ _).2 _ _ _ writes
  cases same
  have named : contract.name = "Button" := (Json.string.inj (Option.some.inj stored)).symm
  refine ⟨path, after, writes, contract, reads, named, ?_⟩
  refine ((contract_identifier _ _ _).1 contract reads).resolve_right ?_
  rintro ⟨identifier, -, ends⟩
  have last : ("Button" : Text).points.getLast? = some (.char '\n') := by
    rw [← named, ends]
    exact List.getLast?_concat
  exact absurd last (by decide)

/-- A contract whose name ends in a line feed. -/
def brokenName : Json :=
  .object [("name", .string "Button\n"), ("platformTargets", .array [.string "web"]),
    ("props", .object [])]

/-- A name that is no identifier is written and read. -/
theorem contract_identifier_line_feed : ∃ path after,
    Workspace.write ⟨.ofText "library"⟩ .empty (.contract "Button")
      (.raw brokenName (by decide)) = (.ok path, after) ∧
    ∃ contract : ComponentContract,
      Workspace.read ⟨.ofText "library"⟩ after (.contract "Button") = .ok contract ∧
      ¬ IsIdentifier contract.name := by
  have succeeds : (Workspace.write ⟨.ofText "library"⟩ .empty (.contract "Button")
      (.raw brokenName (by decide))).1.isOk = true := by decide +kernel
  obtain ⟨path, after, writes⟩ := Outcome.exists_of_fst_isOk succeeds
  refine ⟨path, after, writes, ?_⟩
  rw [write_eq rfl] at writes
  obtain ⟨-, wrote, unicode, writable, contract, builds⟩ := Slot.write_eq_ok writes
  refine ⟨contract, Slot.read_of_wrote (by decide) unicode writable builds wrote, ?_⟩
  obtain ⟨_, same, stored, -⟩ := Schema.name_of_build (Slot.build_eq_ok.mp builds)
  cases same
  have named : contract.name = "Button\n" := (Json.string.inj (Option.some.inj stored)).symm
  rw [named]
  rintro ⟨capital, rest, same, -, all⟩
  cases Text.ofChars_injective same
  exact absurd (all '\n' (by decide)) (by decide)

end Workspace
end DesignSystem
