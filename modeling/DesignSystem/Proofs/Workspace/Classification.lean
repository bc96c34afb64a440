import DesignSystem.Proofs.Disk.Absence
import DesignSystem.Proofs.Json.Parsing
import DesignSystem.Proofs.Workspace.Naming
import DesignSystem.Proofs.Workspace.Settled

/-! # How reading ends

Reading a document ends in one of three ways, by what is on disk: the document is absent, it is read
as its model, or it cannot be used. What cannot be used says where its text leaves the grammar, or
for which issues it is rejected, and nothing more.

* `Slot.Holds`: a file has the text of a document.
* `Slot.Unusable`: how reading fails where a document cannot be used.
* `Slot.Classified`: the ways in which reading ends.
* `Workspace.read_classified`: they are the ways in which every document of a workspace is read.
-/

namespace DesignSystem
set_option autoImplicit false

namespace Slot
variable {α : Type}

/-! ## Documents in files -/

/-- The file in a slot has these bytes, which are the text of a document without words for numbers
and without integers that are too long. -/
def Holds (slot : Slot α) (disk : Disk) (document : Json) : Prop :=
  ∃ text, disk.readFile slot.path = .ok (Utf8.encode text) ∧
    Json.MeansText ⟨false, false⟩ (universalNewlines text) document

theorem parse_eq_ok {bytes : Bytes} {document : Json} : parse bytes = .ok document ↔
    ∃ text, bytes = Utf8.encode text ∧
      Json.MeansText ⟨false, false⟩ (universalNewlines text) document := by
  simp only [← Json.read_eq_ok, ← Utf8.decode_eq_ok]
  unfold parse
  cases Utf8.decode bytes with
  | error fault => simp
  | ok text => cases reads : Json.read false (universalNewlines text) <;> simp [reads]

theorem load_eq_ok_iff {slot : Slot α} {disk : Disk} {document : Json} :
    slot.load disk = .ok document ↔ slot.Holds disk document := by
  rw [load_eq_ok]
  constructor
  · rintro ⟨bytes, reads, parses⟩
    obtain ⟨text, rfl, means⟩ := parse_eq_ok.mp parses
    exact ⟨text, reads, means⟩
  · rintro ⟨text, reads, means⟩
    exact ⟨_, reads, parse_eq_ok.mpr ⟨text, rfl, means⟩⟩

theorem parse_unparsable {text : List Char} {fault : Json.ReadFault}
    (stops : Json.read false (universalNewlines text) = .error fault) :
    parse (Utf8.encode text) = .error (.unparsable fault) := by
  rw [parse, Utf8.decode_encode]
  simp only [stops]

theorem parse_undecodable {bytes : Bytes} (other : ∀ text, bytes ≠ Utf8.encode text) :
    ∃ fault, parse bytes = .error (.undecodable fault) := by
  unfold parse
  cases decodes : Utf8.decode bytes with
  | error fault => exact ⟨fault, rfl⟩
  | ok text => exact absurd (Utf8.decode_eq_ok.mp decodes) (other text)

/-! ## Ways to end -/

/-- Reading fails with the code for a document that cannot be used, with its path and with these
details. -/
def Unusable (slot : Slot α) (disk : Disk) (details : Fields) : Prop :=
  ∃ failure, slot.read disk = .failed failure ∧ failure.code = slot.schema.invalid ∧
    failure.path = some slot.path.text ∧ failure.details = details

/-- The model of a document that its check accepts. -/
def Builds (slot : Slot α) (document : Json) (model : α) : Prop :=
  slot.schema.Accepts document ∧ slot.schema.decode document = .ok model

/-- The ways in which reading ends. -/
structure Classified (slot : Slot α) (disk : Disk) : Prop where
  ok : ∀ model, slot.read disk = .ok model ↔
    ∃ document, slot.Holds disk document ∧ slot.Builds document model
  absent : (∃ failure, slot.read disk = .failed failure ∧ failure.code = slot.schema.absent) ↔
    disk.Lacks slot.path
  blocked : disk.IsBlocked slot.path → slot.Unusable disk []
  /-- There is no file, or its bytes are no text. -/
  unreadable : ¬disk.Lacks slot.path → (∀ text, disk.readFile slot.path ≠ .ok (Utf8.encode text)) →
    slot.Unusable disk []
  malformed : ∀ text fault line column, disk.readFile slot.path = .ok (Utf8.encode text) →
    Json.read false (universalNewlines text) = .error (.malformed fault line column) →
      (∀ dialect document, ¬Json.MeansText dialect (universalNewlines text) document) ∧
        slot.Unusable disk [("line", .int line), ("column", .int column)]
  /-- Reading stops at a word for a number or at an integer that is too long. -/
  refused : ∀ text fault, disk.readFile slot.path = .ok (Utf8.encode text) →
    Json.read false (universalNewlines text) = .error fault →
      (∀ kind line column, fault ≠ .malformed kind line column) → slot.Unusable disk []
  /-- But for such words and integers, the text is that of a document. -/
  beyond : ∀ text document, disk.readFile slot.path = .ok (Utf8.encode text) →
    Json.MeansText ⟨true, true⟩ (universalNewlines text) document →
      (∀ other, ¬slot.Holds disk other) → slot.Unusable disk []
  rejected : ∀ document, slot.Holds disk document → (∀ model, ¬slot.Builds document model) →
    ∃ issues : List Issue, issues ≠ [] ∧
      slot.Unusable disk [("errors", .array (issues.map Issue.document))]
  /-- There is no other way. -/
  unusable : ¬disk.Lacks slot.path →
    (∀ document model, slot.Holds disk document → ¬slot.Builds document model) →
      ∃ details, slot.Unusable disk details

variable {slot : Slot α} {disk : Disk}

theorem read_of_holds {document : Json} (holds : slot.Holds disk document) :
    slot.read disk = slot.build document := by
  rw [read, load_eq_ok_iff.mpr holds]
  rfl

theorem build_eq_ok_iff {document : Json} {model : α} :
    slot.build document = .ok model ↔ slot.Builds document model := by
  rw [build_eq_ok]
  exact ⟨Schema.build_eq_ok, fun builds => Schema.build_of_accepts builds.1 builds.2⟩

theorem read_eq_ok_iff {model : α} : slot.read disk = .ok model ↔
    ∃ document, slot.Holds disk document ∧ slot.Builds document model := by
  constructor
  · intro reads
    obtain ⟨document, loads, builds⟩ := Outcome.bind_eq_ok reads
    exact ⟨document, load_eq_ok_iff.mp loads, build_eq_ok_iff.mp builds⟩
  · rintro ⟨document, holds, builds⟩
    rw [read_of_holds holds]
    exact build_eq_ok_iff.mpr builds

theorem unusable_of_parse {bytes : Bytes} {fault : DocumentFault}
    (reads : disk.readFile slot.path = .ok bytes) (fails : parse bytes = .error fault) :
    slot.Unusable disk fault.details := by
  refine ⟨slot.failure fault, ?_, slot.failure_code ?_, rfl, rfl⟩
  · rw [read_of_readFile reads, opened, fails]
  · rintro rfl
    exact parse_ne_absent fails

theorem unusable_of_refused {text : List Char} {fault : Json.ReadFault}
    (reads : disk.readFile slot.path = .ok (Utf8.encode text))
    (stops : Json.read false (universalNewlines text) = .error fault)
    (other : ∀ kind line column, fault ≠ .malformed kind line column) :
    slot.Unusable disk [] := by
  have unusable := unusable_of_parse reads (parse_unparsable stops)
  cases fault with
  | malformed kind line column => exact absurd rfl (other kind line column)
  | specialWord => exact unusable
  | tooManyDigits => exact unusable

theorem unusable_of_beyond {text : List Char} {document : Json}
    (reads : disk.readFile slot.path = .ok (Utf8.encode text))
    (means : Json.MeansText ⟨true, true⟩ (universalNewlines text) document)
    (none : ∀ other, ¬slot.Holds disk other) : slot.Unusable disk [] := by
  cases stops : Json.read false (universalNewlines text) with
  | ok other => exact absurd ⟨text, reads, Json.read_eq_ok.mp stops⟩ (none other)
  | error fault =>
    refine unusable_of_refused reads stops ?_
    rintro kind line column rfl
    exact Json.not_meansText_of_malformed stops _ document means

theorem unusable_of_error {error : DiskError}
    (reads : disk.readFile slot.path = .error (.disk error)) (there : error.fault ≠ .absent) :
    slot.Unusable disk [] := by
  refine ⟨slot.failure (.unreadable error), ?_, rfl, rfl, rfl⟩
  rw [read, load, reads]
  simp only [if_neg there]
  rfl

section
variable (runs : ∀ abort, slot.read disk ≠ .aborted abort)

include runs

theorem unusable_of_unreadable (there : ¬disk.Lacks slot.path)
    (other : ∀ text, disk.readFile slot.path ≠ .ok (Utf8.encode text)) :
    slot.Unusable disk [] := by
  cases reads : disk.readFile slot.path with
  | ok bytes =>
    rw [reads] at other
    obtain ⟨fault, parses⟩ := parse_undecodable fun text same => other text (congrArg _ same)
    exact unusable_of_parse reads parses
  | error error =>
    cases error with
    | nul =>
      refine absurd ?_ (runs .nulInPath)
      rw [read, load, reads]
      rfl
    | disk error =>
      refine unusable_of_error reads fun absent => there ?_
      exact Disk.readFile_absent_iff.mp ⟨error, reads, absent⟩

theorem unusable_of_rejected {document : Json} (holds : slot.Holds disk document)
    (explains : ∀ report, slot.schema.build document = .ok (.error report) → report.issues ≠ [])
    (rejects : ∀ model, ¬slot.Builds document model) : ∃ issues : List Issue, issues ≠ [] ∧
      slot.Unusable disk [("errors", .array (issues.map Issue.document))] := by
  have reads := read_of_holds holds
  cases builds : slot.schema.build document with
  | error fault =>
    refine absurd ?_ (runs (.number fault))
    rw [reads, build, builds]
  | ok built =>
    cases built with
    | ok model => exact absurd (build_eq_ok_iff.mp (build_eq_ok.mpr builds)) (rejects model)
    | error report =>
      refine ⟨report.issues, explains report builds, slot.failure (.rejected report), ?_, rfl, rfl,
        rfl⟩
      rw [reads, build, builds]

theorem exists_unusable (there : ¬disk.Lacks slot.path)
    (explains : ∀ document report,
      slot.schema.build document = .ok (.error report) → report.issues ≠ [])
    (none : ∀ document model, slot.Holds disk document → ¬slot.Builds document model) :
    ∃ details, slot.Unusable disk details := by
  by_cases readable : ∃ text, disk.readFile slot.path = .ok (Utf8.encode text)
  · obtain ⟨text, reads⟩ := readable
    cases means : Json.read false (universalNewlines text) with
    | error fault => exact ⟨_, unusable_of_parse reads (parse_unparsable means)⟩
    | ok document =>
      have holds : slot.Holds disk document := ⟨text, reads, Json.read_eq_ok.mp means⟩
      obtain ⟨issues, -, unusable⟩ := unusable_of_rejected runs holds (explains document)
        fun model => none document model holds
      exact ⟨_, unusable⟩
  · exact ⟨_, unusable_of_unreadable runs there (not_exists.mp readable)⟩

theorem classified (codes : slot.schema.invalid ≠ slot.schema.absent)
    (explains : ∀ document report,
      slot.schema.build document = .ok (.error report) → report.issues ≠ []) :
    slot.Classified disk where
  ok _ := read_eq_ok_iff
  absent := (read_absent codes).trans Disk.readFile_absent_iff
  blocked blocked := unusable_of_unreadable runs blocked.not_lacks fun _ => blocked.readFile _
  unreadable := unusable_of_unreadable runs
  malformed _ _ _ _ reads stops :=
    ⟨Json.not_meansText_of_malformed stops, unusable_of_parse reads (parse_unparsable stops)⟩
  refused _ _ := unusable_of_refused
  beyond _ _ := unusable_of_beyond
  rejected document holds := unusable_of_rejected runs holds (explains document)
  unusable there := exists_unusable runs there explains

end
end Slot

namespace Workspace

/-- Every document is read in one of these ways, unless reading stops the operation. -/
theorem read_classified {workspace : Workspace} {disk : Disk} {address : Address}
    (runs : ∀ abort, workspace.read disk address ≠ .aborted abort) :
    ∃ slot, workspace.slot address = .ok slot ∧ slot.schema = address.schema ∧
      workspace.read disk address = slot.read disk ∧ slot.Classified disk := by
  cases found : workspace.slot address with
  | error abort =>
    refine absurd ?_ (runs abort)
    rw [read, found]
  | ok slot =>
    have reads : workspace.read disk address = slot.read disk := by rw [read, found]
    have schema : slot.schema = address.schema := slot_schema found
    have codes : address.schema.invalid ≠ address.schema.absent := by
      intro same
      cases address <;> cases same
    have anything : Json.Hereditary fun _ => True := ⟨⟨by simp, by simp⟩, by simp, by simp⟩
    refine ⟨slot, rfl, schema, reads, Slot.classified (reads ▸ runs) (schema ▸ codes) ?_⟩
    intro document report rejects
    exact (Schema.build_reports (schema ▸ address.reporting anything trivial) rejects).1

/-- Whether reading a document does not stop the operation. -/
def isRead (workspace : Workspace) (disk : Disk) (address : Address) : Bool :=
  match workspace.read disk address with
  | .aborted _ => false
  | _ => true

theorem read_ne_aborted {workspace : Workspace} {disk : Disk} {address : Address}
    (ends : workspace.isRead disk address = true) (abort : Abort) :
    workspace.read disk address ≠ .aborted abort := by
  intro aborts
  rw [isRead, aborts] at ends
  cases ends

/-- A text that is no JSON, a directory in the place of a file, and no contracts. -/
def spoiledDisk : Disk := ⟨[("library", .directory [("tokens", .directory [
  ("core.json", .file (Utf8.encode "[1 2]".toList)), ("platform.web.json", .directory [])])])]⟩

theorem read_classified_spoiled :
    let workspace : Workspace := ⟨.ofText "library"⟩
    (∃ failure, workspace.read spoiledDisk .core = .failed failure ∧
      failure.code = .tokenFileInvalid ∧ failure.path = some "library/tokens/core.json" ∧
      failure.details = [("line", .int 1), ("column", .int 4)]) ∧
    (∃ failure, workspace.read spoiledDisk (.platform "web") = .failed failure ∧
      failure.code = .tokenFileInvalid ∧ failure.details = []) ∧
    ∃ failure, workspace.read spoiledDisk (.contract "Button") = .failed failure ∧
      failure.code = .contractNotFound := by
  intro workspace
  have core : workspace.isRead spoiledDisk .core = true := by decide +kernel
  have web : workspace.isRead spoiledDisk (.platform "web") = true := by decide +kernel
  have button : workspace.isRead spoiledDisk (.contract "Button") = true := by decide +kernel
  refine ⟨?_, ?_, ?_⟩
  · obtain ⟨slot, found, -, reads, classified⟩ := read_classified (read_ne_aborted core)
    cases found
    obtain ⟨failure, fails, code, path, details⟩ :=
      (classified.malformed "[1 2]".toList .missingComma 1 4 (by decide +kernel) rfl).2
    exact ⟨failure, reads.trans fails, code, path, details⟩
  · obtain ⟨slot, found, -, reads, classified⟩ := read_classified (read_ne_aborted web)
    cases found
    obtain ⟨failure, fails, code, -, details⟩ := classified.blocked (.inr ⟨[], by rfl⟩)
    exact ⟨failure, reads.trans fails, code, details⟩
  · obtain ⟨slot, found, -, reads, classified⟩ := read_classified (read_ne_aborted button)
    cases found
    obtain ⟨failure, fails, code⟩ := classified.absent.mpr ⟨⟨by decide, by decide⟩,
      ["library"], "contracts", ["Button.contract.json"], ["library"], _, by rfl, by rfl, by rfl,
      by decide, by decide, by decide⟩
    exact ⟨failure, reads.trans fails, code⟩

end Workspace
end DesignSystem
