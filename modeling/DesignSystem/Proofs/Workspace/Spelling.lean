import DesignSystem.Proofs.Disk.Spelling
import DesignSystem.Proofs.Workspace.Report

/-! # One workspace under two spellings of its root

Operations on a workspace end alike under two spellings of its root, but for the messages and paths
of failures.

* `Outcome.verdict`: how an operation ends, without messages and paths.
* `Workspace.read_verdict`, `Workspace.compile_verdict`: reading and compiling.
* `Workspace.Visits`: the paths below the root that a validation looks at.
* `Workspace.validate_marks`: the places and codes of the issues of a validation.
-/

namespace DesignSystem
set_option autoImplicit false

/-! ## Verdicts -/

/-- How an operation ends, without the message and the path of a failure or the reason to stop. -/
def Outcome.verdict {α : Type} : Outcome α → Except (Option FailureCode) α
  | ok value => .ok value
  | failed failure => .error (some failure.code)
  | aborted _ => .error none

namespace Outcome
variable {α β : Type}

theorem verdict_bind (first : Outcome α) (next : α → Outcome β) :
    (first >>= next).verdict = first.verdict >>= fun value => (next value).verdict := by
  cases first <;> rfl

theorem eq_ok_of_verdict {outcome other : Outcome α} (same : outcome.verdict = other.verdict)
    {value : α} (h : outcome = .ok value) : other = .ok value := by
  subst h
  cases other <;> cases same
  rfl

theorem eq_failed_of_verdict {outcome other : Outcome α} (same : outcome.verdict = other.verdict)
    {failure : Failure} (h : outcome = .failed failure) :
    ∃ reason, other = .failed reason ∧ reason.code = failure.code := by
  subst h
  cases other with
  | ok value => cases same
  | aborted abort => cases same
  | failed reason => exact ⟨reason, rfl, (Option.some.inj (Except.error.inj same)).symm⟩

theorem ne_aborted_of_verdict {outcome other : Outcome α} (same : outcome.verdict = other.verdict)
    (h : ∀ abort, outcome ≠ .aborted abort) (abort : Abort) : other ≠ .aborted abort := by
  rintro rfl
  cases outcome with
  | ok value => cases same
  | failed failure => cases same
  | aborted reason => exact h reason rfl

end Outcome

/-- What is read from two slots of one kind ends alike if their files are read alike. -/
theorem Slot.read_verdict {α : Type} {slot other : Slot α} {disk : Disk}
    (schema : slot.schema = other.schema)
    (reads : (disk.readFile slot.path).mapError AccessError.fault? =
      (disk.readFile other.path).mapError AccessError.fault?) :
    (slot.read disk).verdict = (other.read disk).verdict := by
  obtain ⟨path, label, schema⟩ := slot
  obtain ⟨otherPath, otherLabel, _⟩ := other
  cases schema
  have builds (document : Json) : (Slot.build ⟨path, label, schema⟩ document).verdict =
      (Slot.build ⟨otherPath, otherLabel, schema⟩ document).verdict := by
    unfold build
    rcases schema.build document with fault | (report | model) <;> rfl
  have loads : (Slot.load ⟨path, label, schema⟩ disk).verdict =
      (Slot.load ⟨otherPath, otherLabel, schema⟩ disk).verdict := by
    unfold load
    rcases found : disk.readFile path with (_ | ⟨fault, text⟩) | bytes <;>
      rcases foundOther : disk.readFile otherPath with
        (_ | ⟨otherFault, otherText⟩) | otherBytes <;>
      simp only [found, foundOther, mapError_ok, mapError_error, AccessError.fault?,
        Except.error.injEq, Except.ok.injEq, Option.some.injEq, reduceCtorEq] at reads
    · rfl
    · subst reads
      by_cases absent : fault = .absent <;> simp [Outcome.verdict, failure, absent]
    · subst reads
      dsimp only
      cases parses : parse bytes with
      | ok document => rfl
      | error fault => cases fault <;> rfl
  simp only [read, Outcome.verdict_bind, loads, builds]

namespace Workspace
variable {workspace other : Workspace} {disk : Disk} {names : List String}

/-! ## Documents -/

section
variable (alike : disk.Alike workspace.root other.root names)

include alike

theorem read_verdict (location : Location)
    (long : Disk.LongAlike workspace.root other.root location.canonical.tail) :
    (workspace.read disk location.address).verdict =
      (other.read disk location.address).verdict := by
  obtain ⟨slot, found, located⟩ := workspace.slot_atLocation location
  obtain ⟨otherSlot, foundOther, locatedOther⟩ := other.slot_atLocation location
  simp only [read, found, foundOther]
  refine Slot.read_verdict (by rw [slot_schema found, slot_schema foundOther]) ?_
  rw [located.path, locatedOther.path]
  exact alike.readFile location.canonical.tail_plain long

/-- Tokens are compiled alike if their three files are under paths that are too long under both
spellings or under neither. -/
theorem compile_verdict (platform : Platform) (theme : Theme)
    (long : ∀ location ∈ [Location.core, .semantic theme, .platform platform],
      Disk.LongAlike workspace.root other.root location.tail) :
    (workspace.compile disk platform theme).verdict =
      (other.compile disk platform theme).verdict := by
  have core : (workspace.core.read disk).verdict = (other.core.read disk).verdict :=
    read_verdict alike .core (long .core (by simp))
  have semantic : ((workspace.semantic theme).read disk).verdict =
      ((other.semantic theme).read disk).verdict := by
    have same := read_verdict alike (.semantic theme) (long (.semantic theme) (by simp))
    cases theme <;> exact same
  have rules : ((workspace.platform platform).read disk).verdict =
      ((other.platform platform).read disk).verdict := by
    have same := read_verdict alike (.platform platform) (long (.platform platform) (by simp))
    cases platform <;> exact same
  simp only [compile, Outcome.verdict_bind, core, semantic, rules]

end

/-! ## Validations -/

/-- The paths below the root that a validation and the listings look at, from the root to what is
there in its folders. -/
inductive Visits (disk : Disk) (names : List String) : List String → Prop where
  | root : Visits disk names []
  | folder {folder : String} (h : Location.IsFolder folder) : Visits disk names [folder]
  | entry {folder name : String} (h : Location.IsFolder folder)
    (there : disk.node? (names ++ [folder, name]) ≠ none) : Visits disk names [folder, name]
  | document {location : Location}
    (there : ∀ name, location = .contract name → disk.node? (names ++ location.tail) ≠ none) :
    Visits disk names location.canonical.tail

/-- Where an issue is, and of which kind. -/
def mark (issue : Issue) : String × String := (issue.place.text, issue.code)

theorem flaw?_code (location : Location)
    (same : (workspace.read disk location.address).verdict =
      (other.read disk location.address).verdict) :
    (workspace.flaw? disk location).map Failure.code =
      (other.flaw? disk location).map Failure.code := by
  unfold flaw?
  cases reads : workspace.read disk location.address with
  | ok model => rw [Outcome.eq_ok_of_verdict same reads]
  | failed failure =>
    obtain ⟨reason, readsOther, code⟩ := Outcome.eq_failed_of_verdict same reads
    simp only [readsOther, code]
    split <;> simp [code]
  | aborted abort =>
    cases readsOther : other.read disk location.address with
    | aborted reason => rfl
    | ok model => simp [reads, readsOther, Outcome.verdict] at same
    | failed reason => simp [reads, readsOther, Outcome.verdict] at same

theorem issuesAt_marks (location : Location)
    (same : (workspace.read disk location.address).verdict =
      (other.read disk location.address).verdict) :
    (workspace.issuesAt disk location).map mark = (other.issuesAt disk location).map mark := by
  have code := flaw?_code location same
  unfold issuesAt
  cases flaw : workspace.flaw? disk location <;>
    cases flawOther : other.flaw? disk location <;>
    simp only [flaw, flawOther, Option.map_none, Option.map_some, reduceCtorEq,
      Option.some.injEq] at code
  · rfl
  · simp [mark, failureIssue, code]

section
variable (alike : disk.Alike workspace.root other.root names)
  (long : ∀ tail, Visits disk names tail → Disk.LongAlike workspace.root other.root tail)

include alike long

theorem isThere_of_alike (there : workspace.isThere disk = true) : other.isThere disk = true := by
  rw [isThere_eq] at there ⊢
  have same := alike.isDirectory (long _ .root)
  rw [there] at same
  exact mapError_eq_ok.mp same.symm

theorem contractNames_of_alike {contracts : List String}
    (lists : workspace.contractNames disk = .ok contracts) :
    other.contractNames disk = .ok contracts := by
  obtain ⟨files, listed, rest⟩ := bind_eq_ok lists
  have same := @Disk.Alike.fileNames _ _ _ _ alike contractsFolder (endsIn contractSuffix)
    (Location.folder_plain (.inr rfl)) (long _ (.folder (.inr rfl)))
    fun name _ there => long _ (.entry (.inr rfl) there)
  have listedOther : disk.fileNames other.contractsDirectory (endsIn contractSuffix) =
      .ok files := mapError_eq_ok.mp ((same.symm.trans (congrArg _ listed)).trans rfl)
  rw [contractNames, listedOther]
  exact rest

theorem tokenFiles_of_alike {files : TokenFiles} (lists : workspace.tokenFiles disk = .ok files) :
    other.tokenFiles disk = .ok files := by
  obtain ⟨found, listed, rest⟩ := bind_eq_ok lists
  have same := @Disk.Alike.fileNames _ _ _ _ alike tokensFolder (fun _ => true)
    (Location.folder_plain (.inl rfl)) (long _ (.folder (.inl rfl)))
    fun name _ there => long _ (.entry (.inl rfl) there)
  have listedOther : disk.fileNames other.tokensDirectory (fun _ => true) = .ok found :=
    mapError_eq_ok.mp ((same.symm.trans (congrArg _ listed)).trans rfl)
  rw [tokenFiles, listedOther]
  exact rest

/-- A validation of a workspace that is there returns under the other spelling as well, with issues
of the same kinds in the same places. -/
theorem validate_marks (there : workspace.isThere disk = true) {report : Report}
    (validates : workspace.validate disk = .ok report) :
    ∃ found, other.validate disk = .ok found ∧
      found.issues.map mark = report.issues.map mark := by
  rw [validate, if_pos there] at validates
  obtain ⟨issues, documents, h⟩ := bind_eq_ok validates
  cases h
  obtain ⟨contracts, lists, runs⟩ := documents_runs documents
  cases documents.symm.trans (documents_eq_ok lists runs)
  obtain ⟨place, root⟩ := isThere_iff.mp there
  obtain rfl : place = names := Except.ok.inj (root.reaches.descends.symm.trans alike.leads)
  have usable := listable_of_contractNames root lists
  have same : ∀ location ∈ checklist contracts,
      (workspace.read disk location.address).verdict =
        (other.read disk location.address).verdict := by
    intro location mem
    refine read_verdict alike location (long _ (.document ?_))
    rintro name rfl
    obtain ⟨content, file⟩ := (mem_contractNames root usable lists name).mp
      (by simpa [checklist] using mem)
    exact Option.ne_none_iff_exists'.mpr ⟨_, file⟩
  have listsOther := contractNames_of_alike alike long lists
  have runsOther : ∀ location ∈ checklist contracts, ∀ abort,
      other.read disk location.address ≠ .aborted abort := fun location mem =>
    Outcome.ne_aborted_of_verdict (same location mem) (runs location mem)
  refine ⟨_, by rw [validate, if_pos (isThere_of_alike alike long there),
    documents_eq_ok listsOther runsOther]; rfl, ?_⟩
  simp only [List.map_flatMap]
  exact List.flatMap_congr fun location mem => (issuesAt_marks location (same location mem)).symm

end
end Workspace
end DesignSystem
