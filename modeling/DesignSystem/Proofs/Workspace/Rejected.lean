import DesignSystem.Proofs.Model.Written
import DesignSystem.Proofs.Workspace.Completeness

/-! # What failures carry

The details of a failure to read a document are the place of a syntax fault, or the issues for which
the document is rejected. So they take over what the rejected document passes on to its parts.

* `Schema.build_reports`: the issues for which a document is rejected report parts of it.
* `Slot.parse_built`: what is known of documents that are read.
* `Slot.Rejects`, `Workspace.Rejects`: documents that are read and rejected.
* `Slot.details_of_failed`: the details of a failure.
-/

namespace DesignSystem
set_option autoImplicit false

open Json

variable {holds : Json → Prop}

/-! ## Reports -/

theorem Decoded.Ends.reports {α : Type} {decoded : Decoded α} {good : α → Prop}
    {issues : List Issue} (ends : decoded.Ends holds good) (rejects : decoded = .rejected issues) :
    issues ≠ [] ∧ ∀ issue ∈ issues, issue.Reports holds := by
  subst rejects
  exact ends

namespace Schema

/-- The issues of the check of a document, and those of decoding it, report values with a property
that the document passes on to its parts. -/
structure Reporting {α : Type} (schema : Schema α) (holds : Json → Prop) (document : Json) :
    Prop where
  check : ∀ report, schema.check document = .ok report →
    ∀ issue ∈ report.issues, issue.Reports holds
  decode : ∃ good, (schema.decode document).Ends holds good

theorem build_reports {α : Type} {schema : Schema α} {document : Json} {report : Report}
    (reporting : schema.Reporting holds document)
    (rejects : schema.build document = .ok (.error report)) :
    report.issues ≠ [] ∧ ∀ issue ∈ report.issues, issue.Reports holds := by
  obtain ⟨found, checks, rejects⟩ := bind_eq_ok rejects
  split at rejects
  · split at rejects
    · cases rejects
    · next issues decodes =>
      cases rejects
      obtain ⟨good, ends⟩ := reporting.decode
      exact ends.reports decodes
  · next invalid =>
    cases rejects
    refine ⟨fun none => ?_, reporting.check _ checks⟩
    exact absurd (List.isEmpty_iff.mpr none) invalid

section
variable {document : Json} (hereditary : Hereditary holds) (h : holds document)

include hereditary h

omit hereditary in
theorem total_reports {issues : Json → List Issue}
    (reports : Check.Reports holds fun _ => issues) :
    ∀ report, total issues document = .ok report →
      ∀ issue ∈ report.issues, issue.Reports holds := by
  rintro _ ⟨⟩
  exact reports [] document h

omit hereditary in
theorem guarded_reports {oversized : Json → Bool} {issues : Json → List Issue}
    (reports : Check.Reports holds fun _ => issues) :
    ∀ report, guarded oversized issues document = .ok report →
      ∀ issue ∈ report.issues, issue.Reports holds := by
  intro report checks
  unfold guarded at checks
  split at checks <;> cases checks
  exact reports [] document h

theorem checkContract_reports : ∀ report, checkContract document = .ok report →
    ∀ issue ∈ report.issues, issue.Reports holds := by
  intro report checks
  have ends := ComponentContract.decode_ends hereditary h
  unfold checkContract at checks
  split at checks
  · split at checks
    · next contract decodes =>
      rw [decodes] at ends
      exact Usage.checkExamples_reports hereditary (fun e mem => (ends.examples e mem).props) checks
    · next issues decodes =>
      cases checks
      exact (ends.reports decodes).2
  · cases checks
    exact Check.contract_reports hereditary [] document h

end
end Schema

theorem Address.reporting (address : Address) {document : Json} (hereditary : Hereditary holds)
    (h : holds document) : address.schema.Reporting holds document := by
  cases address with
  | system => exact ⟨Schema.total_reports h (Check.systemManifest_reports hereditary),
      _, SystemManifest.decode_ends hereditary h⟩
  | core => exact ⟨Schema.guarded_reports h (Check.coreTokens_reports hereditary),
      _, CoreTokens.decode_ends hereditary h⟩
  | semantic theme => exact ⟨Schema.total_reports h (Check.semanticTokens_reports hereditary),
      _, SemanticTokens.decode_ends hereditary h⟩
  | platform platform => exact ⟨Schema.guarded_reports h (Check.platformRules_reports hereditary),
      _, PlatformRules.decode_ends hereditary h⟩
  | contract name => exact ⟨Schema.checkContract_reports hereditary h,
      _, ComponentContract.decode_ends hereditary h⟩

/-! ## Documents of reports -/

section
variable (cumulative : Cumulative holds)

include cumulative

theorem Issue.document_holds {issue : Issue} (reports : issue.Reports holds) :
    holds issue.document := by
  unfold Issue.document
  cases found : issue.value with
  | none => exact cumulative.object (by simp) (by simp [cumulative.text])
  | some value =>
    have h := reports value found
    exact cumulative.object (by simp) (by simp [cumulative.text, h])

theorem Report.issueDocuments_holds {report : Report}
    (reports : ∀ issue ∈ report.issues, issue.Reports holds) : holds report.issueDocuments := by
  refine cumulative.array fun item mem => ?_
  obtain ⟨issue, listed, rfl⟩ := List.mem_map.mp mem
  exact Issue.document_holds cumulative (reports issue listed)

end

/-! ## Failures -/

namespace Slot
variable {α : Type} {slot : Slot α} {disk : Disk}

/-- The documents that bytes hold have the properties that are built up while they are read. -/
theorem parse_built (built : Built holds) {bytes : Bytes} {document : Json}
    (parses : parse bytes = .ok document) : holds document := by
  unfold parse at parses
  split at parses
  · cases parses
  · split at parses
    · cases parses
    · next reads =>
      cases parses
      exact read_built built reads

/-- A document is in a slot, and is rejected there. -/
def Rejects (slot : Slot α) (disk : Disk) (document : Json) : Prop :=
  slot.load disk = .ok document ∧ ∃ failure, slot.build document = .failed failure

theorem Rejects.built (built : Built holds) {document : Json}
    (rejects : slot.Rejects disk document) : holds document := by
  obtain ⟨bytes, -, parses⟩ := load_eq_ok.mp rejects.1
  exact parse_built built parses

theorem Rejects.not_isOk {document : Json} (rejects : slot.Rejects disk document) :
    (slot.read disk).isOk = false := by
  obtain ⟨loads, failure, fails⟩ := rejects
  rw [read, loads]
  change (slot.build document).isOk = false
  rw [fails]
  rfl

theorem build_eq_failed {document : Json} {failure : Failure}
    (h : slot.build document = .failed failure) : ∃ report,
      slot.schema.build document = .ok (.error report) ∧
        failure.details = [("errors", report.issueDocuments)] := by
  unfold build at h
  split at h
  · cases h
  · next report rejects =>
    cases h
    exact ⟨report, rejects, rfl⟩
  · cases h

/-- The file in a slot is no document, for a syntax fault at this place. -/
def StopsAt (slot : Slot α) (disk : Disk) (line column : Nat) : Prop :=
  ∃ bytes fault, disk.readFile slot.path = .ok bytes ∧
    parse bytes = .error (.unparsable (.malformed fault line column))

theorem load_eq_failed {failure : Failure} (h : slot.load disk = .failed failure) :
    failure.details = [] ∨ ∃ line column : Nat, slot.StopsAt disk line column ∧
      failure.details = [("line", .int line), ("column", .int column)] := by
  unfold load at h
  split at h
  · cases h
  · cases h
    split <;> exact .inl rfl
  · next bytes reads =>
    split at h
    · next fault parses =>
      cases h
      have notRejected : ∀ report, fault ≠ .rejected report := by
        rintro report rfl
        unfold parse at parses
        split at parses
        · cases parses
        · split at parses <;> cases parses
      cases fault with
      | rejected report => exact absurd rfl (notRejected report)
      | unparsable fault =>
        cases fault with
        | malformed kind line column =>
          exact .inr ⟨line, column, ⟨bytes, kind, reads, parses⟩, rfl⟩
        | _ => exact .inl rfl
      | _ => exact .inl rfl
    · cases h

/-- The details of a failure to read take over the properties of the documents that are rejected,
and of the places of syntax faults. -/
theorem details_of_failed (cumulative : Cumulative holds)
    (reporting : ∀ document, holds document → slot.schema.Reporting holds document)
    (places : ∀ line column, slot.StopsAt disk line column →
      holds (.int line) ∧ holds (.int column))
    (each : ∀ document, slot.Rejects disk document → holds document) {failure : Failure}
    (fails : slot.read disk = .failed failure) : holds (.object failure.details) := by
  unfold read at fails
  cases loads : slot.load disk with
  | aborted abort => simp [loads, bind, Outcome.bind] at fails
  | failed loading =>
    obtain rfl : loading = failure := by simpa [loads, bind, Outcome.bind] using fails
    rcases load_eq_failed loads with e | ⟨line, column, stops, e⟩ <;> rw [e]
    · exact cumulative.empty
    · exact cumulative.object (by simp) (by simp [places line column stops])
  | ok document =>
    replace fails : slot.build document = .failed failure := by
      simpa [loads, bind, Outcome.bind] using fails
    obtain ⟨report, rejects, e⟩ := build_eq_failed fails
    have reports := (Schema.build_reports
      (reporting document (each document ⟨loads, failure, fails⟩)) rejects).2
    rw [e]
    exact cumulative.object (by simp)
      (by simp [Report.issueDocuments_holds cumulative reports])

end Slot

namespace Workspace
variable {workspace : Workspace} {disk : Disk}

/-- A document is at an address of a workspace, and is rejected there. -/
def Rejects (workspace : Workspace) (disk : Disk) (address : Address) (document : Json) : Prop :=
  ∃ slot, workspace.slot address = .ok slot ∧ slot.Rejects disk document

/-- The file at an address of a workspace is no document, for a syntax fault at this place. -/
def StopsAt (workspace : Workspace) (disk : Disk) (address : Address) (line column : Nat) : Prop :=
  ∃ slot, workspace.slot address = .ok slot ∧ slot.StopsAt disk line column

theorem details_of_failed (cumulative : Cumulative holds) {address : Address}
    (places : ∀ line column, workspace.StopsAt disk address line column →
      holds (.int line) ∧ holds (.int column))
    (each : ∀ document, workspace.Rejects disk address document → holds document)
    {failure : Failure} (fails : workspace.read disk address = .failed failure) :
    holds (.object failure.details) := by
  unfold read at fails
  split at fails
  · cases fails
  · next slot found =>
    refine Slot.details_of_failed cumulative (fun document h => ?_)
      (fun line column stops => places line column ⟨slot, found, stops⟩)
      (fun document rejects => each document ⟨slot, found, rejects⟩) fails
    rw [slot_schema found]
    exact address.reporting cumulative.toHereditary h

theorem failureIssue_reports (hereditary : Hereditary holds)
    {place : String} {failure : Failure} (details : holds (.object failure.details)) :
    (failureIssue place failure).Reports holds := by
  intro value found
  change detailValue failure.details = some value at found
  unfold detailValue at found
  split at found
  · next issues listed =>
    cases found
    exact hereditary.get? details listed
  · split at found <;> cases found
    exact details

/-- The issues of a validation report parts of the details of failures. -/
theorem validate_reports (hereditary : Hereditary holds)
    (details : ∀ (location : Location) (failure : Failure),
      workspace.read disk location.address = .failed failure → holds (.object failure.details))
    {report : Report} (validates : workspace.validate disk = .ok report) :
    ∀ issue ∈ report.issues, issue.Reports holds := by
  intro issue mem
  unfold validate at validates
  split at validates
  · obtain ⟨found, documents, h⟩ := bind_eq_ok validates
    cases h
    obtain ⟨_, -, location, -, failure, fails, rfl⟩ := mem_documents documents mem
    exact failureIssue_reports hereditary (details location failure fails)
  · cases validates
    rw [List.mem_singleton.mp mem]
    intro value found
    cases found

end Workspace
end DesignSystem
