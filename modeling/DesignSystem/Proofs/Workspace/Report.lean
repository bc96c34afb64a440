import DesignSystem.Proofs.Disk.Listing
import DesignSystem.Proofs.Workspace.Validity
import Mathlib.Data.List.Forall2
import Mathlib.Data.List.Nodup

/-! # What a validation reports

* `Location.address`, `Location.place`: the document at a location, and how an issue names it.
* `Workspace.checklist`: the locations that a validation reads, in order.
* `Workspace.flaw?`, `Workspace.flaws`: the failures to read a document that count, and where.
* `Reports`: an issue carries a failure and the location of it.
* `Workspace.validate_report`: if no document and no listing of contracts stops a validation, it
  reports the flaws, one issue for each.
-/

namespace DesignSystem
set_option autoImplicit false

/-! ## Locations -/

namespace Location

/-- The document at a location. -/
def address : Location → Address
  | system => .system
  | core => .core
  | semantic theme => .semantic (Vocabulary.word theme)
  | platform target => .platform (Vocabulary.word target)
  | contract name => .contract name

/-- The path below the root, as issues name it. -/
def place (location : Location) : String := String.intercalate "/" location.tail

instance (location : Location) : Decidable location.MayMiss :=
  match location with
  | semantic _ | platform _ => isTrue trivial
  | system | core | contract _ => isFalse id

theorem toList_place_contract (name : String) : (contract name).place.toList =
    "contracts/".toList ++ name.toList ++ contractSuffix.toList := by
  simp [place, tail, contractsFolder, contractFile]

theorem head?_place_contract (name : String) :
    (contract name).place.toList.head? = some 'c' := by
  rw [toList_place_contract, List.append_assoc]
  rfl

/-- No two documents are named alike. -/
theorem place_injective {a b : Location} (h : a.place = b.place) : a = b := by
  rcases a with _ | _ | (_ | _) | (_ | _) | name <;>
    rcases b with _ | _ | (_ | _) | (_ | _) | other
  case contract.contract =>
    rw [← String.toList_inj, toList_place_contract, toList_place_contract] at h
    simp only [List.append_cancel_left_eq, List.append_cancel_right_eq, String.toList_inj] at h
    rw [h]
  -- names of contracts may be anything, but no other place begins as those of contracts do
  all_goals first
    | rfl
    | exact absurd h (by decide)
    | (have heads := congrArg (fun text : String => text.toList.head?) h
       simp only [head?_place_contract] at heads
       exact absurd heads (by decide))

end Location

namespace Workspace

/-- The locations that a validation reads, in order, where these contracts are listed. -/
def checklist (contracts : List String) : List Location :=
  .system :: contracts.map .contract ++
    [.core, .semantic .light, .semantic .dark, .platform .web, .platform .rn]

/-- The failure to read the document at a location. A document that may be missing does not fail by
not being found. -/
def flaw? (workspace : Workspace) (disk : Disk) (location : Location) : Option Failure :=
  match workspace.read disk location.address with
  | .failed failure =>
    if location.MayMiss ∧ failure.code = .tokenFileNotFound then none else some failure
  | _ => none

/-- The flaws of a workspace in which these contracts are listed. -/
def flaws (workspace : Workspace) (disk : Disk) (contracts : List String) :
    List (Location × Failure) :=
  (checklist contracts).filterMap fun location =>
    (workspace.flaw? disk location).map (location, ·)

end Workspace

/-- An issue carries a failure to read the document at a location. Its value are the issues of the
document, or else the place of a syntax fault in it. -/
structure Reports (issue : Issue) (location : Location) (failure : Failure) : Prop where
  place : issue.place = .named location.place
  message : issue.message = failure.message
  code : issue.code = failure.code.word
  value : (∃ report : Report, failure.details = [("errors", report.issueDocuments)] ∧
      issue.value = some report.issueDocuments) ∨
    (∃ line column : Nat, failure.details = [("line", .int line), ("column", .int column)] ∧
      issue.value = some (.object [("line", .int line), ("column", .int column)])) ∨
    (failure.details = [] ∧ issue.value = none)

/-! ## Failures -/

theorem Slot.read_eq_failed {α : Type} {slot : Slot α} {disk : Disk} {failure : Failure}
    (h : slot.read disk = .failed failure) : ∃ fault, failure = slot.failure fault := by
  unfold Slot.read at h
  cases loads : slot.load disk with
  | aborted abort => simp [loads, bind, Outcome.bind] at h
  | failed loading =>
    obtain rfl : loading = failure := by simpa [loads, bind, Outcome.bind] using h
    unfold Slot.load at loads
    split at loads
    · cases loads
    · cases loads
      exact ⟨_, rfl⟩
    · split at loads
      · cases loads
        exact ⟨_, rfl⟩
      · cases loads
  | ok document =>
    replace h : slot.build document = .failed failure := by
      simpa [loads, bind, Outcome.bind] using h
    unfold Slot.build at h
    split at h
    · cases h
    · cases h
      exact ⟨_, rfl⟩
    · cases h

theorem DocumentFault.details_cases (fault : DocumentFault) :
    (∃ report : Report, fault.details = [("errors", report.issueDocuments)]) ∨
    (∃ line column : Nat, fault.details = [("line", .int line), ("column", .int column)]) ∨
    fault.details = [] := by
  unfold DocumentFault.details
  split
  · next line column => exact .inr (.inl ⟨line, column, rfl⟩)
  · next report => exact .inl ⟨report, rfl⟩
  · exact .inr (.inr rfl)

namespace Workspace
variable {workspace : Workspace} {disk : Disk} {location : Location} {failure : Failure}

theorem slot_atLocation (workspace : Workspace) (location : Location) :
    ∃ slot, workspace.slot location.address = .ok slot ∧
      workspace.AtLocation slot location.canonical := by
  cases location with
  | system => exact ⟨_, rfl, workspace.system_atLocation⟩
  | core => exact ⟨_, rfl, workspace.core_atLocation⟩
  | semantic theme => cases theme <;> exact ⟨_, rfl, workspace.semantic_atLocation _⟩
  | platform target => cases target <;> exact ⟨_, rfl, workspace.platform_atLocation _⟩
  | contract name => exact ⟨_, rfl, workspace.contract_atLocation name⟩

theorem read_eq_failed {address : Address}
    (h : workspace.read disk address = .failed failure) :
    ∃ (slot : Slot address.Model) (fault : DocumentFault), failure = slot.failure fault := by
  unfold read at h
  split at h
  · cases h
  · next slot _ =>
    obtain ⟨fault, same⟩ := Slot.read_eq_failed h
    exact ⟨slot, fault, same⟩

theorem flaw?_eq_some (h : workspace.flaw? disk location = some failure) :
    workspace.read disk location.address = .failed failure := by
  unfold flaw? at h
  split at h
  · next found reads =>
    split at h
    · cases h
    · cases h
      exact reads
  · cases h

theorem reports_failureIssue (h : workspace.flaw? disk location = some failure) :
    Reports (failureIssue location.place failure) location failure := by
  obtain ⟨slot, fault, same⟩ := read_eq_failed (flaw?_eq_some h)
  have details : failure.details = fault.details := by rw [same]; rfl
  refine ⟨rfl, rfl, rfl, ?_⟩
  rw [show (failureIssue location.place failure).value = detailValue failure.details from rfl,
    details]
  rcases fault.details_cases with ⟨report, e⟩ | ⟨line, column, e⟩ | e <;> rw [e]
  · exact .inl ⟨report, rfl, rfl⟩
  · exact .inr (.inl ⟨line, column, rfl, rfl⟩)
  · exact .inr (.inr ⟨rfl, rfl⟩)

/-! ## Issues -/

theorem issuesOf_eq_ok {α : Type} {issues : α → Except Abort (List Issue)} {documents : List α}
    {found : α → List Issue}
    (each : ∀ document ∈ documents, issues document = .ok (found document)) :
    issuesOf issues documents = .ok (documents.flatMap found) := by
  induction documents with
  | nil => rfl
  | cons document documents ih =>
    rw [List.forall_mem_cons] at each
    rw [issuesOf, each.1, ih each.2]
    rfl

/-- The issues that a validation finds at a location. -/
def issuesAt (workspace : Workspace) (disk : Disk) (location : Location) : List Issue :=
  (workspace.flaw? disk location).toList.map (failureIssue location.place)

theorem documentIssues_at (location : Location) (required : ¬ location.MayMiss)
    (runs : ∀ abort, workspace.read disk location.address ≠ .aborted abort) :
    documentIssues location.place (workspace.read disk location.address) =
      .ok (workspace.issuesAt disk location) := by
  unfold issuesAt flaw?
  cases reads : workspace.read disk location.address with
  | ok model => rfl
  | failed failure => simp [documentIssues, required]
  | aborted abort => exact absurd reads (runs abort)

theorem optionalIssues_at (location : Location) (mayMiss : location.MayMiss)
    (runs : ∀ abort, workspace.read disk location.address ≠ .aborted abort) :
    optionalIssues location.place (workspace.read disk location.address) =
      .ok (workspace.issuesAt disk location) := by
  unfold issuesAt flaw?
  cases reads : workspace.read disk location.address with
  | ok model => rfl
  | failed failure =>
    by_cases absent : failure.code = .tokenFileNotFound <;>
      simp [optionalIssues, mayMiss, absent]
  | aborted abort => exact absurd reads (runs abort)

theorem flaws_issues (contracts : List String) :
    (workspace.flaws disk contracts).map (fun flaw => failureIssue flaw.1.place flaw.2) =
      (checklist contracts).flatMap (workspace.issuesAt disk) := by
  unfold flaws
  induction checklist contracts with
  | nil => rfl
  | cons location locations ih =>
    rw [List.flatMap_cons, ← ih, issuesAt]
    cases found : workspace.flaw? disk location <;> simp [found]

/-- A validation goes through the checklist. -/
theorem documents_eq_ok {contracts : List String}
    (lists : workspace.contractNames disk = .ok contracts)
    (runs : ∀ location ∈ checklist contracts, ∀ abort,
      workspace.read disk location.address ≠ .aborted abort) :
    documents workspace disk =
      .ok ((checklist contracts).flatMap (workspace.issuesAt disk)) := by
  have system : documentIssues systemFile (workspace.system.read disk) =
      .ok (workspace.issuesAt disk .system) :=
    documentIssues_at .system id (runs _ (by simp [checklist]))
  have core : documentIssues s!"{tokensFolder}/{coreFile}" (workspace.core.read disk) =
      .ok (workspace.issuesAt disk .core) :=
    documentIssues_at .core id (runs _ (by simp [checklist]))
  have contract : ∀ name ∈ contracts, documentIssues s!"{contractsFolder}/{contractFile name}"
      ((workspace.contract name).read disk) = .ok (workspace.issuesAt disk (.contract name)) :=
    fun name mem => documentIssues_at (.contract name) id
      (runs _ (by simp [checklist, mem]))
  have theme : ∀ theme ∈ (Vocabulary.members : List Theme),
      optionalIssues s!"{tokensFolder}/{semanticFile theme}"
        ((workspace.semantic theme).read disk) =
          .ok (workspace.issuesAt disk (.semantic theme)) := by
    rintro (_ | _) -
    · exact optionalIssues_at (.semantic .light) trivial (runs _ (by simp [checklist]))
    · exact optionalIssues_at (.semantic .dark) trivial (runs _ (by simp [checklist]))
  have platform : ∀ target ∈ (Vocabulary.members : List Platform),
      optionalIssues s!"{tokensFolder}/{platformFile target}"
        ((workspace.platform target).read disk) =
          .ok (workspace.issuesAt disk (.platform target)) := by
    rintro (_ | _) -
    · exact optionalIssues_at (.platform .web) trivial (runs _ (by simp [checklist]))
    · exact optionalIssues_at (.platform .rn) trivial (runs _ (by simp [checklist]))
  unfold documents
  rw [system, lists, core, issuesOf_eq_ok theme, issuesOf_eq_ok platform]
  simp only [mapError_ok, bind, Except.bind, issuesOf_eq_ok contract]
  simp [checklist, Vocabulary.members, List.flatMap_map, pure, Except.pure]

theorem issuesOf_runs {α : Type} {issues : α → Except Abort (List Issue)} {documents : List α}
    {found : List Issue} (h : issuesOf issues documents = .ok found) :
    ∀ document ∈ documents, ∃ here, issues document = .ok here := by
  induction documents generalizing found with
  | nil => simp
  | cons document documents ih =>
    obtain ⟨first, runs, h⟩ := bind_eq_ok h
    obtain ⟨others, rest, -⟩ := bind_eq_ok h
    exact List.forall_mem_cons.mpr ⟨⟨first, runs⟩, ih rest⟩

theorem documentIssues_runs {α : Type} {place : String} {outcome : Outcome α}
    {found : List Issue} (h : documentIssues place outcome = .ok found) (abort : Abort) :
    outcome ≠ .aborted abort := by
  rintro rfl
  cases h

theorem optionalIssues_runs {α : Type} {place : String} {outcome : Outcome α}
    {found : List Issue} (h : optionalIssues place outcome = .ok found) (abort : Abort) :
    outcome ≠ .aborted abort := by
  rintro rfl
  cases h

/-- A validation that returns has listed the contracts, and no document has stopped it. -/
theorem documents_runs {found : List Issue} (h : documents workspace disk = .ok found) :
    ∃ contracts, workspace.contractNames disk = .ok contracts ∧
      ∀ location ∈ checklist contracts, ∀ abort,
        workspace.read disk location.address ≠ .aborted abort := by
  obtain ⟨system, ofSystem, h⟩ := bind_eq_ok h
  obtain ⟨contracts, lists, h⟩ := bind_eq_ok h
  obtain ⟨contractIssues, ofContracts, h⟩ := bind_eq_ok h
  obtain ⟨core, ofCore, h⟩ := bind_eq_ok h
  obtain ⟨themes, ofThemes, h⟩ := bind_eq_ok h
  obtain ⟨platforms, ofPlatforms, -⟩ := bind_eq_ok h
  have theme (theme : Theme) (abort : Abort) :
      workspace.read disk (Location.semantic theme).address ≠ .aborted abort := by
    obtain ⟨here, runs⟩ := issuesOf_runs ofThemes theme (by cases theme <;> decide)
    cases theme <;> exact optionalIssues_runs runs abort
  have platform (target : Platform) (abort : Abort) :
      workspace.read disk (Location.platform target).address ≠ .aborted abort := by
    obtain ⟨here, runs⟩ := issuesOf_runs ofPlatforms target (by cases target <;> decide)
    cases target <;> exact optionalIssues_runs runs abort
  refine ⟨contracts, mapError_eq_ok.mp lists, fun location mem abort => ?_⟩
  cases location with
  | system => exact documentIssues_runs ofSystem abort
  | core => exact documentIssues_runs ofCore abort
  | semantic member => exact theme member abort
  | platform target => exact platform target abort
  | contract name =>
    obtain ⟨here, runs⟩ := issuesOf_runs ofContracts name (by simpa [checklist] using mem)
    exact documentIssues_runs runs abort

/-! ## Names of contracts -/

theorem increasing_contractNames {contracts : List String}
    (lists : workspace.contractNames disk = .ok contracts) : contracts.Pairwise (· < ·) := by
  obtain ⟨files, found, h⟩ := bind_eq_ok lists
  cases h
  have distinct : files.Nodup := (Disk.increasing_fileNames found).imp Std.ne_of_lt
  refine increasing_mergeSort (distinct.filterMap fun a b base ha hb => ?_)
  rw [withoutSuffix?_eq_some.mp ha, withoutSuffix?_eq_some.mp hb]

theorem nodup_contractNames {contracts : List String}
    (lists : workspace.contractNames disk = .ok contracts) : contracts.Nodup :=
  (increasing_contractNames lists).imp Std.ne_of_lt

theorem nodup_checklist {contracts : List String} (distinct : contracts.Nodup) :
    (checklist contracts).Nodup := by
  have named : (contracts.map Location.contract).Nodup :=
    distinct.map fun a b same => Location.contract.inj same
  simp [checklist, List.nodup_append, named]

theorem flaws_locations (contracts : List String) :
    (workspace.flaws disk contracts).map Prod.fst =
      (checklist contracts).filter fun location => (workspace.flaw? disk location).isSome := by
  unfold flaws
  induction checklist contracts with
  | nil => rfl
  | cons location locations ih => cases found : workspace.flaw? disk location <;> simp [found, ih]

/-! ## Absent files -/

/-- No file is at a location. -/
def Absent (workspace : Workspace) (disk : Disk) (location : Location) : Prop :=
  ∃ error, disk.readFile (workspace.root.below location.tail) = .error (.disk error) ∧
    error.fault = .absent

theorem notFound_iff_absent (mayMiss : location.MayMiss) :
    (∃ failure, workspace.read disk location.address = .failed failure ∧
      failure.code = .tokenFileNotFound) ↔ workspace.Absent disk location := by
  obtain ⟨slot, found, located⟩ := workspace.slot_atLocation location
  have reads : workspace.read disk location.address = slot.read disk := by simp only [read, found]
  have schema := slot_schema found
  have codes : location.canonical = location ∧
      slot.schema.absent = .tokenFileNotFound ∧ slot.schema.invalid = .tokenFileInvalid := by
    rw [schema]
    cases location with
    | system | core | contract => exact mayMiss.elim
    | semantic | platform => exact ⟨rfl, rfl, rfl⟩
  have absent := @Slot.read_absent _ slot disk (by rw [codes.2.1, codes.2.2]; decide)
  have path := located.path
  rw [codes.1] at path
  rw [reads, Absent, ← path, ← codes.2.1]
  exact absent

theorem flaw?_eq_none (runs : ∀ abort, workspace.read disk location.address ≠ .aborted abort) :
    workspace.flaw? disk location = none ↔
      (∃ model, workspace.read disk location.address = .ok model) ∨
        location.MayMiss ∧ workspace.Absent disk location := by
  have absent := @notFound_iff_absent workspace disk location
  unfold flaw?
  cases reads : workspace.read disk location.address with
  | aborted abort => exact absurd reads (runs abort)
  | ok model => simp
  | failed failure =>
    rw [reads] at absent
    simp only [Outcome.failed.injEq, exists_eq_left'] at absent
    by_cases mayMiss : location.MayMiss <;> simp [mayMiss, ← absent]

/-! ## Roots that are spelled too long -/

theorem byteLength_tail (location : Location) :
    6 < Path.byteLength (Path.slashed location.tail) := by
  cases location with
  | system => decide
  | core => decide
  | semantic theme => cases theme <;> decide
  | platform target => cases target <;> decide
  | contract name =>
    have folder : Path.byteLength ("/" ++ contractsFolder) = 10 := by decide
    simp only [Location.tail, Path.slashed, Path.byteLength_append] at folder ⊢
    omega

theorem noNul_tail (plain : '\x00' ∉ location.place.toList) :
    location.canonical.tail.any (·.toList.contains '\x00') = false := by
  cases location with
  | system => decide
  | core => decide
  | semantic theme => cases theme <;> decide
  | platform target => cases target <;> decide
  | contract name =>
    rw [Location.toList_place_contract, List.mem_append, List.mem_append, not_or, not_or] at plain
    have safe : '\x00' ∉ (safeName name).toList := by
      simp only [safeName, String.toList_ofList, List.mem_map, not_exists, not_and]
      intro c mem same
      split at same
      · cases same
      · exact plain.1.2 (same ▸ mem)
    simpa [Location.canonical, Location.tail, contractFile, safe, plain.2] using
      show '\x00' ∉ contractsFolder.toList by decide

/-- No document of a workspace is read whose root takes up nearly all bytes of a path. -/
theorem read_of_overlong (parts : workspace.root.parts ≠ [])
    (noNul : workspace.root.hasNul = false)
    (long : Disk.maxPathBytes ≤ Path.byteLength workspace.root.text + 6)
    (plain : '\x00' ∉ location.place.toList) :
    ∃ failure, workspace.read disk location.address = .failed failure := by
  have overlong : (workspace.root.below location.canonical.tail).IsOverlong := by
    refine Path.isOverlong_below parts ?_ ?_
    · rw [Path.hasNul_below, noNul, noNul_tail plain, Bool.or_false]
    · have tail := byteLength_tail location.canonical
      omega
  obtain ⟨slot, found, located⟩ := workspace.slot_atLocation location
  rw [← located.path] at overlong
  refine ⟨slot.failure (.unreadable ⟨.nameTooLong, slot.path.text⟩), ?_⟩
  simp only [read, found, Slot.read, Slot.load, disk.readFile_overlong overlong]
  rfl

/-- Nor are its contracts listed. -/
theorem contractNames_of_overlong (parts : workspace.root.parts ≠ [])
    (noNul : workspace.root.hasNul = false)
    (long : Disk.maxPathBytes < Path.byteLength workspace.root.text + 10) :
    ∃ error, workspace.contractNames disk = .error error := by
  have overlong : (workspace.root.below [contractsFolder]).IsOverlong := by
    refine Path.isOverlong_below parts ?_ ?_
    · rw [Path.hasNul_below, noNul]
      decide
    · have folder : Path.byteLength (Path.slashed [contractsFolder]) = 10 := by decide
      omega
  refine ⟨⟨.nameTooLong, (workspace.root.below [contractsFolder]).text⟩, ?_⟩
  rw [contractNames, show workspace.contractsDirectory = workspace.root.below [contractsFolder]
    from rfl, disk.fileNames_overlong overlong]
  rfl

/-! ## Reports -/

theorem isThere_eq (workspace : Workspace) (disk : Disk) :
    workspace.isThere disk = true ↔ disk.isDirectory workspace.root = .ok true := by
  unfold isThere
  cases disk.isDirectory workspace.root <;> simp

/-- Where the root is no directory, a validation reports that the workspace is not found. Otherwise,
if the contracts can be listed and no document stops the validation, it reports the flaws, one issue
for each, in order and under different names; so it finds no issue if every document can be read,
apart from theme and platform files that are absent. -/
theorem validate_report (workspace : Workspace) (disk : Disk) :
    (disk.isDirectory workspace.root ≠ .ok true →
      workspace.validate disk = .ok ⟨[⟨.named ".", s!"Workspace not found: {workspace.root.text}",
        "WORKSPACE_NOT_FOUND", none⟩]⟩) ∧
    ∀ contracts, disk.isDirectory workspace.root = .ok true →
      workspace.contractNames disk = .ok contracts →
      (∀ location ∈ checklist contracts, ∀ abort,
        workspace.read disk location.address ≠ .aborted abort) →
      ∃ report, workspace.validate disk = .ok report ∧
        List.Forall₂ (fun issue flaw => Reports issue flaw.1 flaw.2) report.issues
          (workspace.flaws disk contracts) ∧
        (report.issues.map fun issue => issue.place.text).Nodup ∧
        (report.valid = true ↔ ∀ location ∈ checklist contracts,
          (∃ model, workspace.read disk location.address = .ok model) ∨
            location.MayMiss ∧ workspace.Absent disk location) := by
  refine ⟨fun missing => ?_, fun contracts there lists runs => ?_⟩
  · have absent : ¬ workspace.isThere disk = true := fun there =>
      missing ((isThere_eq workspace disk).mp there)
    rw [validate, if_neg absent]
    rfl
  · have issues := documents_eq_ok lists runs
    rw [← flaws_issues] at issues
    refine ⟨⟨_⟩, by rw [validate, if_pos ((isThere_eq workspace disk).mpr there), issues]; rfl,
      ?_, ?_, ?_⟩
    · rw [List.forall₂_map_left_iff, List.forall₂_same]
      rintro ⟨location, failure⟩ mem
      obtain ⟨found, -, counts⟩ := List.mem_filterMap.mp mem
      obtain ⟨other, flaw, same⟩ := Option.map_eq_some_iff.mp counts
      cases same
      exact reports_failureIssue flaw
    · have named : ((workspace.flaws disk contracts).map fun flaw => flaw.1.place).Nodup := by
        have distinct := (nodup_checklist (nodup_contractNames lists)).filter
          fun location => (workspace.flaw? disk location).isSome
        rw [← flaws_locations] at distinct
        simpa [Function.comp_def] using distinct.map fun a b same => Location.place_injective same
      simpa [failureIssue, Place.text, Function.comp_def] using named
    · rw [Report.valid, List.isEmpty_iff, flaws_issues, List.flatMap_eq_nil_iff]
      refine forall₂_congr fun location mem => ?_
      rw [← flaw?_eq_none (runs location mem)]
      simp [issuesAt, Option.toList_eq_nil_iff]

/-- A disk with a workspace that lacks its manifest and has a contract and platform rules that are
no documents of their kinds. -/
def flawedDisk : Disk := ⟨[("library", .directory [
  ("contracts", .directory [("Card.contract.json", .file [0x7B])]),
  ("tokens", .directory [("core.json", .file (Slot.bytes (.object [("tokens", .object [])]))),
    ("platform.web.json", .file (Slot.bytes (.array [])))])])]⟩

/-- Whether a validation stops at a location. -/
def stopsAt (workspace : Workspace) (disk : Disk) (location : Location) : Bool :=
  match workspace.read disk location.address with
  | .aborted _ => true
  | _ => false

theorem validate_report_flawed :
    Workspace.validate ⟨.ofText "elsewhere"⟩ flawedDisk =
      .ok ⟨[⟨.named ".", "Workspace not found: elsewhere", "WORKSPACE_NOT_FOUND", none⟩]⟩ ∧
    (flaws ⟨.ofText "library"⟩ flawedDisk ["Card"]).map (fun flaw => flaw.1.place) =
      ["system.json", "contracts/Card.contract.json", "tokens/platform.web.json"] ∧
    ∃ report, Workspace.validate ⟨.ofText "library"⟩ flawedDisk = .ok report ∧
      List.Forall₂ (fun issue flaw => Reports issue flaw.1 flaw.2) report.issues
        (flaws ⟨.ofText "library"⟩ flawedDisk ["Card"]) := by
  have missing : Disk.isDirectory flawedDisk (Path.ofText "elsewhere") ≠ .ok true := by
    decide +kernel
  have there : Disk.isDirectory flawedDisk (Path.ofText "library") = .ok true := by
    decide +kernel
  have lists : Workspace.contractNames ⟨.ofText "library"⟩ flawedDisk = .ok ["Card"] := by
    decide +kernel
  have runs : ∀ location ∈ checklist ["Card"],
      stopsAt ⟨.ofText "library"⟩ flawedDisk location = false := by
    decide +kernel
  refine ⟨(validate_report ⟨.ofText "elsewhere"⟩ flawedDisk).1 missing, by decide +kernel, ?_⟩
  obtain ⟨report, validates, reports, -⟩ := (validate_report ⟨.ofText "library"⟩ flawedDisk).2
    ["Card"] there lists fun location mem abort aborts => by
      simpa [stopsAt, aborts] using runs location mem
  exact ⟨report, validates, reports⟩

theorem validate_of_unlistable {error : DiskError}
    (there : disk.isDirectory workspace.root = .ok true)
    (runs : ∀ abort, workspace.read disk .system ≠ .aborted abort)
    (lists : workspace.contractNames disk = .error error) :
    workspace.validate disk = .error (.disk error) := by
  have system : documentIssues systemFile (workspace.system.read disk) =
      .ok (workspace.issuesAt disk .system) := documentIssues_at .system id runs
  rw [validate, if_pos ((isThere_eq workspace disk).mpr there), documents, system, lists]
  rfl

/-- A validation that no document stops may be stopped by the listing of contracts, where the root
is spelled at such length that no name fits behind it. -/
theorem validate_report_unlistable :
    let workspace : Workspace := ⟨.detour "ws" 682⟩
    let disk : Disk := ⟨[("ws", .directory [])]⟩
    disk.isDirectory workspace.root = .ok true ∧
    (∀ location : Location, '\x00' ∉ location.place.toList →
      ∀ abort, workspace.read disk location.address ≠ .aborted abort) ∧
    ∃ error, workspace.validate disk = .error (.disk error) := by
  intro workspace disk
  have short : Path.byteLength "ws" = 2 := by decide
  have length : Path.byteLength workspace.root.text = 4094 := by
    rw [Path.byteLength_detour, short]
  have root : disk.HasDirectory workspace.root ["ws"] :=
    Disk.hasDirectory_detour rfl (by decide) (by decide) (by rw [short]; decide)
  have noNul := root.reaches.usable.noNul
  have parts : workspace.root.parts ≠ [] := List.cons_ne_nil _ _
  have runs : ∀ location : Location, '\x00' ∉ location.place.toList →
      ∀ abort, workspace.read disk location.address ≠ .aborted abort := by
    intro location plain abort aborts
    obtain ⟨failure, fails⟩ := @read_of_overlong workspace disk location parts noNul
      (by rw [length]; decide) plain
    cases fails.symm.trans aborts
  have there : disk.isDirectory workspace.root = .ok true :=
    Disk.isDirectory_eq_ok.mpr ⟨["ws"], root⟩
  obtain ⟨error, lists⟩ := @contractNames_of_overlong workspace disk parts noNul
    (by rw [length]; decide)
  exact ⟨there, runs, error, validate_of_unlistable there (runs .system (by decide)) lists⟩

end Workspace
end DesignSystem
