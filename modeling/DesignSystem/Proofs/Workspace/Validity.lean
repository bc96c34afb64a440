import DesignSystem.Proofs.Model.Origin
import DesignSystem.Proofs.Workspace.Soundness
import DesignSystem.Proofs.Workspace.Starter
import DesignSystem.Proofs.Workspace.Write

/-! # Validity is an invariant

* `Workspace.Valid`: a validation finds no issue.
* `Workspace.valid_iff_sound`: a workspace is valid if it is sound.
* `Workspace.performAll_valid`: no sequence of operations makes a valid workspace invalid, if what
  it writes is Unicode or rejected.
* `Workspace.performAll_valid_lone`: a document that is neither does.
-/

namespace DesignSystem
set_option autoImplicit false

/-! ## Absent documents -/

theorem Slot.parse_ne_absent {bytes : Bytes} : Slot.parse bytes ≠ .error .absent := by
  unfold Slot.parse
  split
  · simp
  · split <;> simp

theorem Slot.failure_code {α : Type} (slot : Slot α) {fault : DocumentFault}
    (h : fault ≠ .absent) : (slot.failure fault).code = slot.schema.invalid := by
  cases fault <;> first | exact absurd rfl h | rfl

/-- A document fails to be read with the code for an absent one if its file is absent. -/
theorem Slot.read_absent {α : Type} {slot : Slot α} {disk : Disk}
    (codes : slot.schema.invalid ≠ slot.schema.absent) :
    (∃ failure, slot.read disk = .failed failure ∧ failure.code = slot.schema.absent) ↔
      ∃ error, disk.readFile slot.path = .error (.disk error) ∧ error.fault = .absent := by
  have present : ∀ fault, fault ≠ .absent → (slot.failure fault).code ≠ slot.schema.absent :=
    fun fault h e => codes ((slot.failure_code h).symm.trans e)
  unfold Slot.read Slot.load
  cases reads : disk.readFile slot.path with
  | error error =>
    cases error with
    | nul => simp [bind, Outcome.bind]
    | disk error =>
      by_cases absent : error.fault = .absent
      · simp [bind, Outcome.bind, absent, Slot.failure]
      · simp [bind, Outcome.bind, absent, present]
  | ok bytes =>
    cases parses : Slot.parse bytes with
    | error fault =>
      have other : fault ≠ .absent := fun e => Slot.parse_ne_absent (e ▸ parses)
      simp [bind, Outcome.bind, parses, present fault other]
    | ok document =>
      simp only [bind, Outcome.bind, parses, Slot.build]
      cases slot.schema.build document with
      | error fault => simp
      | ok built => cases built <;> simp [present]

namespace Workspace

/-! ## Lists of issues -/

theorem documentIssues_eq_nil {α : Type} {place : String} {outcome : Outcome α} :
    documentIssues place outcome = .ok [] ↔ ∃ model, outcome = .ok model := by
  cases outcome <;> simp [documentIssues]

theorem optionalIssues_eq_nil {α : Type} {place : String} {outcome : Outcome α} :
    optionalIssues place outcome = .ok [] ↔ (∃ model, outcome = .ok model) ∨
      ∃ failure, outcome = .failed failure ∧ failure.code = .tokenFileNotFound := by
  cases outcome with
  | ok model => simp [optionalIssues, documentIssues]
  | failed failure =>
    by_cases absent : failure.code = .tokenFileNotFound <;> simp [optionalIssues, absent]
  | aborted abort => simp [optionalIssues, documentIssues]

theorem append_eq_nil {first others : Except Abort (List Issue)} :
    (do let a ← first
        let b ← others
        return a ++ b) = .ok [] ↔ first = .ok [] ∧ others = .ok [] := by
  cases first with
  | error abort => simp [bind, Except.bind]
  | ok first => cases others <;> simp [bind, Except.bind, pure, Except.pure]

theorem issuesOf_eq_nil {α : Type} {issues : α → Except Abort (List Issue)} {documents : List α} :
    issuesOf issues documents = .ok [] ↔ ∀ document ∈ documents, issues document = .ok [] := by
  induction documents with
  | nil => simp [issuesOf]
  | cons document documents ih => rw [issuesOf, append_eq_nil, ih, List.forall_mem_cons]

/-! ## Valid workspaces -/

/-- A validation returns, and finds no issue. -/
def Valid (workspace : Workspace) (disk : Disk) : Prop :=
  ∃ report, workspace.validate disk = .ok report ∧ report.valid = true

variable {workspace : Workspace} {disk : Disk} {names : List String}

theorem isThere_iff : workspace.isThere disk = true ↔
    ∃ names, disk.HasDirectory workspace.root names := by
  rw [← Disk.isDirectory_eq_ok, isThere]
  cases disk.isDirectory workspace.root <;> simp

theorem valid_iff_documents :
    workspace.Valid disk ↔ workspace.isThere disk = true ∧ documents workspace disk = .ok [] := by
  unfold Valid validate
  cases workspace.isThere disk with
  | false => simp [Report.valid]
  | true =>
    cases documents workspace disk with
    | error abort => simp [bind, Except.bind]
    | ok issues => simp [bind, Except.bind, pure, Except.pure, Report.valid]

/-- A validation finds no issue in a theme or platform file if it may be looked for and is a
document where anything is at its place. -/
theorem optionalIssues_eq_nil_iff {α : Type} {slot : Slot α} {location : Location}
    (located : workspace.AtLocation slot location) {name : String}
    (tail : location.tail = [tokensFolder, name]) (short : Disk.Short location.tail)
    (absent : slot.schema.absent = .tokenFileNotFound)
    (invalid : slot.schema.invalid = .tokenFileInvalid)
    (root : disk.HasDirectory workspace.root names)
    (parent : disk.node? (names ++ [tokensFolder]) = some .directory) {place : String} :
    optionalIssues place (slot.read disk) = .ok [] ↔
      (workspace.root.below location.tail).Usable ∧
        (disk.node? (names ++ location.tail) ≠ none →
          workspace.HasDocument disk names location) := by
  have codes : slot.schema.invalid ≠ slot.schema.absent := by simp [absent, invalid]
  have plain := location.tail_plain
  have missing := @Slot.read_absent α slot disk codes
  rw [located.path, absent] at missing
  rw [optionalIssues_eq_nil, located.read_iff root, missing]
  have gone := root.absent_below (tail ▸ plain) (tail ▸ short) parent
  rw [← tail] at gone
  rw [gone]
  constructor
  · rintro (document | ⟨usable, nothing⟩)
    · exact ⟨document.usable, fun _ => document⟩
    · exact ⟨usable, fun something => absurd nothing something⟩
  · rintro ⟨usable, document⟩
    by_cases nothing : disk.node? (names ++ location.tail) = none
    · exact .inr ⟨usable, nothing⟩
    · exact .inl (document nothing)

theorem tokensDirectory_of_core (core : workspace.HasDocument disk names .core) :
    disk.node? (names ++ [tokensFolder]) = some .directory := by
  obtain ⟨bytes, -, file, -⟩ := core.document
  have parts : names ++ Location.core.tail = (names ++ [tokensFolder]) ++ [coreFile] := by
    simp [Location.tail]
  rw [parts] at file
  exact Entry.node?_parent (by rw [show disk.top.node? _ = _ from file]; simp)

theorem listable_of_contractNames {found : List String}
    (root : disk.HasDirectory workspace.root names)
    (h : workspace.contractNames disk = .ok found) : workspace.contractsDirectory.Usable := by
  obtain ⟨files, lists, -⟩ := bind_eq_ok h
  refine Disk.usable_of_fileNames lists ?_
  rw [show workspace.contractsDirectory = workspace.root.below [contractsFolder] from rfl,
    Path.hasNul_below, root.reaches.usable.noNul]
  decide

/-- What a validation reads, one document after the other. -/
theorem documents_eq_nil (root : disk.HasDirectory workspace.root names) :
    documents workspace disk = .ok [] ↔
      workspace.HasDocument disk names .system ∧
      (∃ found, workspace.contractNames disk = .ok found ∧
        ∀ name ∈ found, workspace.HasDocument disk names (.contract (safeName name))) ∧
      workspace.HasDocument disk names .core ∧
      (∀ theme ∈ (Vocabulary.members : List Theme),
        optionalIssues s!"{tokensFolder}/{semanticFile theme}"
          ((workspace.semantic theme).read disk) = .ok []) ∧
      ∀ target ∈ (Vocabulary.members : List Platform),
        optionalIssues s!"{tokensFolder}/{platformFile target}"
          ((workspace.platform target).read disk) = .ok [] := by
  rw [← workspace.system_atLocation.read_iff root, ← workspace.core_atLocation.read_iff root,
    ← issuesOf_eq_nil, ← issuesOf_eq_nil]
  simp only [← (workspace.contract_atLocation _).read_iff root]
  constructor
  · intro h
    obtain ⟨system, systemIssues, h⟩ := bind_eq_ok h
    obtain ⟨found, lists, h⟩ := bind_eq_ok h
    obtain ⟨contracts, contractIssues, h⟩ := bind_eq_ok h
    obtain ⟨core, coreIssues, h⟩ := bind_eq_ok h
    obtain ⟨themes, themeIssues, h⟩ := bind_eq_ok h
    obtain ⟨platforms, platformIssues, h⟩ := bind_eq_ok h
    have none := Except.ok.inj h
    simp only [List.append_eq_nil_iff] at none
    obtain ⟨⟨⟨⟨rfl, rfl⟩, rfl⟩, rfl⟩, rfl⟩ := none
    refine ⟨documentIssues_eq_nil.mp systemIssues,
      ⟨found, mapError_eq_ok.mp lists, fun name mem => ?_⟩,
      documentIssues_eq_nil.mp coreIssues, themeIssues, platformIssues⟩
    exact documentIssues_eq_nil.mp (issuesOf_eq_nil.mp contractIssues name mem)
  · rintro ⟨system, ⟨found, lists, contracts⟩, core, themes, platforms⟩
    have contractIssues : issuesOf (fun name =>
        documentIssues s!"{contractsFolder}/{contractFile name}"
          ((workspace.contract name).read disk)) found = .ok [] :=
      issuesOf_eq_nil.mpr fun name mem => documentIssues_eq_nil.mpr (contracts name mem)
    unfold documents
    rw [documentIssues_eq_nil.mpr system, documentIssues_eq_nil.mpr core, themes, platforms, lists]
    simp only [bind, Except.bind, mapError_ok, contractIssues]
    rfl

theorem semanticIssues_eq_nil_iff (root : disk.HasDirectory workspace.root names)
    (core : workspace.HasDocument disk names .core) (theme : Theme) {place : String} :
    optionalIssues place ((workspace.semantic theme).read disk) = .ok [] ↔
      (workspace.root.below (Location.semantic theme).tail).Usable ∧
        (disk.node? (names ++ (Location.semantic theme).tail) ≠ none →
          workspace.HasDocument disk names (.semantic theme)) :=
  optionalIssues_eq_nil_iff (workspace.semantic_atLocation theme) rfl
    (by cases theme <;> decide) rfl rfl root (tokensDirectory_of_core core)

theorem platformIssues_eq_nil_iff (root : disk.HasDirectory workspace.root names)
    (core : workspace.HasDocument disk names .core) (target : Platform) {place : String} :
    optionalIssues place ((workspace.platform target).read disk) = .ok [] ↔
      (workspace.root.below (Location.platform target).tail).Usable ∧
        (disk.node? (names ++ (Location.platform target).tail) ≠ none →
          workspace.HasDocument disk names (.platform target)) :=
  optionalIssues_eq_nil_iff (workspace.platform_atLocation target) rfl
    (by cases target <;> decide) rfl rfl root (tokensDirectory_of_core core)

/-- A workspace is valid if it is sound. -/
theorem valid_iff_sound : workspace.Valid disk ↔ ∃ names, workspace.Sound disk names := by
  rw [valid_iff_documents, isThere_iff]
  constructor
  · rintro ⟨⟨names, root⟩, noIssue⟩
    obtain ⟨system, ⟨found, lists, contracts⟩, core, themes, platforms⟩ :=
      (documents_eq_nil root).mp noIssue
    have listable := listable_of_contractNames root lists
    have theme := fun theme : Theme => (semanticIssues_eq_nil_iff root core theme).mp
      (themes theme (by cases theme <;> decide))
    have platform := fun target : Platform => (platformIssues_eq_nil_iff root core target).mp
      (platforms target (by cases target <;> decide))
    have inReach := (contractNames_returns root listable).mp ⟨found, lists⟩
    refine ⟨names, root, listable, inReach, fun location mayMiss => ?_,
      fun location notices => ?_⟩
    · cases location with
      | system => cases mayMiss
      | core => cases mayMiss
      | contract name => cases mayMiss
      | semantic t => exact (theme t).1
      | platform target => exact (platform target).1
    · cases location with
      | system => exact system
      | core => exact core
      | semantic t => exact (theme t).2 notices
      | platform target => exact (platform target).2 notices
      | contract name =>
        exact contracts name ((mem_contractNames root listable lists name).mpr notices)
  · rintro ⟨names, sound⟩
    have root := sound.root
    have core := sound.documents .core trivial
    refine ⟨⟨names, root⟩, (documents_eq_nil root).mpr
      ⟨sound.documents .system trivial, ?_, core, fun theme _ => ?_, fun target _ => ?_⟩⟩
    · obtain ⟨found, lists⟩ := (contractNames_returns root sound.listable).mpr sound.inReach
      exact ⟨found, lists, fun name listed => sound.documents (.contract name)
        ((mem_contractNames root sound.listable lists name).mp listed)⟩
    · exact (semanticIssues_eq_nil_iff root core theme).mpr
        ⟨sound.usable (.semantic theme) trivial, sound.documents (.semantic theme)⟩
    · exact (platformIssues_eq_nil_iff root core target).mpr
        ⟨sound.usable (.platform target) trivial, sound.documents (.platform target)⟩

/-! ## Operations -/

/-- The starter documents have distinct names, so that what is written is what is read. -/
theorem starter_distinct : Starter.system.Distinct ∧ Starter.core.Distinct ∧
    (∀ theme, (Starter.semantic theme).Distinct) ∧
    (∀ target, (Starter.platform target).Distinct) ∧ Starter.button.Distinct :=
  (Starter.forall_documents fun _ document => document.Distinct).mp Starter.documents_distinct

theorem Sound.starterWrites (sound : workspace.Sound disk names) :
    workspace.Sound (Workspace.writeAll workspace.starterWrites disk).2 names := by
  refine writeAll_keeps (workspace.Sound · names) (fun write mem disk sound => ?_) sound
  obtain ⟨starter, listed, unicode, α, slot, located, -, rfl⟩ :=
    exists_of_forall₂ workspace.starterWrites_enter mem
  exact sound.write located (Starter.documents_canonical starter listed)
    (Starter.documents_distinct starter listed) (.inr unicode)

theorem Sound.scaffold (sound : workspace.Sound disk names) (force : Bool) :
    workspace.Sound (workspace.scaffold disk force).2 names := by
  have writes := sound.starterWrites
  unfold Workspace.scaffold
  split
  · exact sound
  · exact sound
  · exact writes

end Workspace

/-- An operation that opens no file for a text without bytes: what it writes is rejected, or is
Unicode. -/
def Operation.Encodes : Operation → Prop
  | write address argument =>
    address.schema.Rejects argument.document ∨ argument.document.Unicode
  | _ => True

namespace Workspace
variable {workspace : Workspace} {disk : Disk} {names : List String}

/-- No such operation makes a sound workspace unsound. -/
theorem Sound.perform (sound : workspace.Sound disk names) {operation : Operation}
    (encodes : operation.Encodes) : workspace.Sound (workspace.perform disk operation).2 names := by
  cases operation with
  | isThere | read | listContracts | listTokenFiles | fileTree | compile | validate => exact sound
  | scaffold force => exact sound.scaffold force
  | write address argument =>
    rw [Workspace.perform]
    cases found : workspace.slot address with
    | error abort =>
      simp only [Workspace.write, found]
      exact sound
    | ok slot =>
      rw [write_eq found]
      obtain ⟨location, located, canonical⟩ := exists_atLocation found
      refine sound.write located canonical argument.distinct (encodes.imp_left fun rejects => ?_)
      rw [← slot_schema found] at rejects
      exact Slot.refuses_of_rejects rejects

/-- No sequence of operations makes a valid workspace invalid, if what it writes is Unicode or
rejected. -/
theorem performAll_valid (workspace : Workspace) (disk : Disk) (valid : workspace.Valid disk)
    (operations : List Operation) (encodes : ∀ operation ∈ operations, operation.Encodes) :
    workspace.Valid (workspace.performAll disk operations) := by
  rw [valid_iff_sound] at valid ⊢
  obtain ⟨names, sound⟩ := valid
  refine ⟨names, ?_⟩
  induction operations generalizing disk with
  | nil => exact sound
  | cons operation operations ih =>
    rw [List.forall_mem_cons] at encodes
    exact ih _ encodes.2 (sound.perform encodes.1)

/-- A disk with the two documents that every workspace has. -/
def plainDisk : Disk := ⟨[("library", .directory [
  ("system.json", .file (Slot.bytes
    (.object [("name", .string "plain"), ("version", .string "1")]))),
  ("tokens", .directory [("core.json", .file (Slot.bytes
    (.object [("tokens", .object [])])))])])]⟩

theorem plainDisk_valid : Valid ⟨.ofText "library"⟩ plainDisk :=
  exists_of_toOption_any (by decide +kernel)

theorem performAll_valid_plain :
    let operations : List Operation := [.scaffold true, .write .core (.raw .null .null), .validate,
      .write (.contract "a/b") (.raw Starter.button starter_distinct.2.2.2.2)]
    Valid ⟨.ofText "library"⟩ plainDisk ∧
    (∀ operation ∈ operations, operation.Encodes) ∧
    Valid ⟨.ofText "library"⟩ (performAll ⟨.ofText "library"⟩ plainDisk operations) := by
  intro operations
  have encodes : ∀ operation ∈ operations, operation.Encodes := by
    have none : Json.null.Unicode := by decide
    have button : Starter.button.Unicode :=
      Starter.documents_unicode (.contract "Button", Starter.button) (by simp [Starter.documents])
    simp only [operations, List.forall_mem_cons]
    exact ⟨trivial, .inr none, trivial, .inr button, by simp⟩
  exact ⟨plainDisk_valid, encodes, performAll_valid _ _ plainDisk_valid _ encodes⟩

/-- A manifest that is no Unicode text makes a valid workspace invalid. -/
theorem performAll_valid_lone :
    Valid ⟨.ofText "library"⟩ plainDisk ∧
    ¬ Valid ⟨.ofText "library"⟩ (performAll ⟨.ofText "library"⟩ plainDisk
      [.write .system (.raw loneManifest (by decide))]) := by
  refine ⟨plainDisk_valid, ?_⟩
  rintro ⟨report, validates, valid⟩
  have fails : (validate ⟨.ofText "library"⟩ (performAll ⟨.ofText "library"⟩ plainDisk
      [.write .system (.raw loneManifest (by decide))])).toOption.map Report.valid =
        some false := by decide +kernel
  rw [validates] at fails
  cases valid.symm.trans (Option.some.inj fails)

end Workspace
end DesignSystem
