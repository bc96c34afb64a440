import DesignSystem.Proofs.Workspace.Report
import DesignSystem.Proofs.Workspace.Scaffold
import DesignSystem.Proofs.Workspace.Write

/-! # A scaffold that succeeds is complete

* `Workspace.Stores`: a document is in the file at its location, as it is written.
* `Workspace.mem_documents`: an issue of a validation names a document that fails to be read.
* `Workspace.Scaffolded`: the starter documents are read and compile, nothing else has changed, and
  a validation finds issues in contracts of others only.
* `Workspace.scaffold_complete`: a scaffold that succeeds leaves such a disk, and one that reports
  an invalid structure leaves the disk as it was.
-/

namespace DesignSystem
set_option autoImplicit false

namespace Workspace
variable {workspace : Workspace} {disk after : Disk}

/-! ## Stored documents -/

/-- A document is in the file at its location, as it is written. -/
structure Stores (workspace : Workspace) (disk : Disk) (location : Location) (document : Json) :
    Prop where
  file : disk.readFile (workspace.root.below location.tail) = .ok (Slot.bytes document)
  distinct : document.Distinct
  unicode : document.Unicode
  writable : document.unwritable? true = none

theorem Stores.read {α : Type} {slot : Slot α} {location : Location} {document : Json} {model : α}
    (h : workspace.Stores disk location document) (located : workspace.AtLocation slot location)
    (builds : slot.schema.build document = .ok (.ok model)) : slot.read disk = .ok model :=
  Slot.read_of_bytes h.distinct h.unicode h.writable (Slot.build_eq_ok.mpr builds)
    (by rw [located.path, h.file])

theorem Stores.readAt {location : Location} {document : Json}
    (h : workspace.Stores disk location document) (canonical : location.canonical = location)
    (builds : location.Builds document) :
    ∃ model, location.address.schema.decode document = .ok model ∧
      workspace.read disk location.address = .ok model := by
  obtain ⟨slot, found, located⟩ := workspace.slot_atLocation location
  rw [canonical] at located
  obtain ⟨model, built⟩ := (located.builds document).mpr builds
  have builds := Slot.build_eq_ok.mp built
  refine ⟨model, ?_, ?_⟩
  · rw [← slot_schema found]
    exact (Schema.build_eq_ok builds).2
  · rw [Workspace.read, found]
    exact h.read located builds

theorem Stores.root {location : Location} {document : Json}
    (h : workspace.Stores disk location document) :
    ∃ names, disk.HasDirectory workspace.root names := by
  refine Disk.hasDirectory_of_readFile location.tail_plain ?_ h.file
  cases location <;> exact List.cons_ne_nil _ _

theorem starters_stored
    (h : writeAll workspace.starterWrites disk = (.ok (), after)) :
    ∀ starter ∈ Starter.documents, workspace.Stores after starter.1 starter.2 := fun starter mem =>
  ⟨writeAll_reads workspace.starterWrites_enter Starter.documents_nodup h starter mem,
    Starter.documents_distinct starter mem, Starter.documents_unicode starter mem,
    Starter.documents_writable starter mem⟩

theorem compile_starters
    (stored : ∀ starter ∈ Starter.documents, workspace.Stores after starter.1 starter.2)
    (target : Platform) (theme : Theme) :
    ∃ tokens, workspace.compile after target theme = .ok tokens ∧
      tokens.names = Starter.tokenNames := by
  obtain ⟨-, core, semantic, platform, -⟩ :=
    (Starter.forall_documents (workspace.Stores after)).mp stored
  obtain ⟨coreTokens, semanticTokens, rules, tokens, buildsCore, buildsSemantic, buildsRules,
    compiles, names⟩ := Starter.compiledNames?_eq_some (Starter.compiles target theme)
  refine ⟨tokens, ?_, names⟩
  rw [Workspace.compile, core.read workspace.core_atLocation buildsCore,
    (semantic theme).read (workspace.semantic_atLocation theme) buildsSemantic,
    (platform target).read (workspace.platform_atLocation target) buildsRules]
  exact compiles

/-! ## Issues -/

/-- An issue names the location of a document that fails to be read, with the failure. -/
def NamesFailure (workspace : Workspace) (disk : Disk) (issue : Issue) (location : Location) :
    Prop :=
  ∃ failure, workspace.read disk location.address = .failed failure ∧
    issue = failureIssue location.place failure

variable {issue : Issue} {found : List Issue}

/-- An issue of a validation names a document of the checklist that fails to be read. -/
theorem mem_documents (h : documents workspace disk = .ok found) (mem : issue ∈ found) :
    ∃ contracts, workspace.contractNames disk = .ok contracts ∧
      ∃ location ∈ checklist contracts, workspace.NamesFailure disk issue location := by
  obtain ⟨contracts, lists, runs⟩ := documents_runs h
  cases h.symm.trans (documents_eq_ok lists runs)
  obtain ⟨location, listed, mem⟩ := List.mem_flatMap.mp mem
  obtain ⟨failure, flaw, rfl⟩ := List.mem_map.mp mem
  exact ⟨contracts, lists, location, listed, failure,
    flaw?_eq_some (Option.mem_toList.mp flaw), rfl⟩

/-! ## Failures -/

theorem Enters.failure {write : Write} {starter : Location × Json} {failure : Failure}
    (h : workspace.Enters write starter) (fails : write disk = (.failed failure, after)) :
    failure.code ≠ .workspaceInvalidStructure := by
  obtain ⟨-, α, slot, -, invalid, rfl⟩ := h
  rw [Slot.write_eq_failed fails]
  exact invalid

/-- A sequence of writes fails as one of them does. -/
theorem writeAll_eq_failed {writes : List Write} {failure : Failure}
    (h : writeAll writes disk = (.failed failure, after)) :
    ∃ write ∈ writes, ∃ before stopped, write before = (.failed failure, stopped) := by
  induction writes generalizing disk with
  | nil => cases h
  | cons write writes ih =>
    rw [writeAll] at h
    split at h
    · obtain ⟨other, listed, fails⟩ := ih h
      exact ⟨other, List.mem_cons_of_mem _ listed, fails⟩
    · cases h
    · next first stopped fails =>
      split at h
      · cases h
      · cases h
        exact ⟨write, List.mem_cons_self, disk, stopped, fails⟩

/-! ## Scaffolds that succeed -/

/-- A workspace after a scaffold that succeeds, on the disk before it. -/
structure Scaffolded (workspace : Workspace) (disk after : Disk) : Prop where
  /-- Each starter document is in its file as it is, and is read as its model. -/
  documents : ∀ starter ∈ Starter.documents,
    after.readFile (workspace.root.below starter.1.tail) = .ok (Slot.bytes starter.2) ∧
    Slot.parse (Slot.bytes starter.2) = .ok starter.2 ∧
    ∃ model, starter.1.address.schema.decode starter.2 = .ok model ∧
      workspace.read after starter.1.address = .ok model
  /-- The tokens compile for every platform and theme, under the same names. -/
  compiles : ∃ names, ∀ target theme, ∃ tokens,
    workspace.compile after target theme = .ok tokens ∧ tokens.names = names
  /-- Nothing else has changed but that directories above the starter documents are there. -/
  others : ∀ names,
    (∀ starter ∈ Starter.documents, names ≠ (workspace.root.below starter.1.tail).names) →
      disk.GrowsAt after (workspace.IsAbove Starter.documents) names
  /-- A validation finds issues in other contracts only. -/
  issues : ∀ report, workspace.validate after = .ok report → ∀ issue ∈ report.issues,
    ∃ name, name ≠ "Button" ∧ issue.place = .named (Location.contract name).place ∧
      ∃ contracts, workspace.contractNames after = .ok contracts ∧ name ∈ contracts

theorem issues_of_stored
    (stored : ∀ starter ∈ Starter.documents, workspace.Stores after starter.1 starter.2)
    {report : Report} (validates : workspace.validate after = .ok report) {issue : Issue}
    (mem : issue ∈ report.issues) :
    ∃ name, name ≠ "Button" ∧ issue.place = .named (Location.contract name).place ∧
      ∃ contracts, workspace.contractNames after = .ok contracts ∧ name ∈ contracts := by
  have there : workspace.isThere after = true :=
    isThere_iff.mpr (stored (.system, Starter.system) (by simp [Starter.documents])).root
  rw [validate, if_pos there] at validates
  obtain ⟨found, documents, h⟩ := bind_eq_ok validates
  cases h
  obtain ⟨contracts, lists, location, checked, failure, fails, rfl⟩ := mem_documents documents mem
  have starterRead : ∀ starter ∈ Starter.documents, starter.1 ≠ location := by
    rintro starter listed rfl
    obtain ⟨model, -, reads⟩ := (stored starter listed).readAt
      (Starter.documents_canonical starter listed) (Starter.documents_build starter listed)
    cases reads.symm.trans fails
  obtain ⟨system, core, semantic, platform, button⟩ :=
    (Starter.forall_documents fun starter _ => starter ≠ location).mp starterRead
  cases location with
  | system => exact absurd rfl system
  | core => exact absurd rfl core
  | semantic theme => exact absurd rfl (semantic theme)
  | platform target => exact absurd rfl (platform target)
  | contract name =>
    refine ⟨name, fun same => button (by rw [same]), rfl, contracts, lists, ?_⟩
    simpa [checklist] using checked

theorem scaffolded_of_stored
    (stored : ∀ starter ∈ Starter.documents, workspace.Stores after starter.1 starter.2)
    (rewrites : disk.Rewrites after (workspace.IsAbove Starter.documents)
      (Starter.documents.map workspace.starterFile)) : workspace.Scaffolded disk after where
  documents starter listed := by
    have stores := stored starter listed
    exact ⟨stores.file, Slot.parse_bytes stores.distinct stores.unicode stores.writable,
      stores.readAt (Starter.documents_canonical starter listed)
        (Starter.documents_build starter listed)⟩
  compiles := ⟨Starter.tokenNames, compile_starters stored⟩
  others names apart := by
    refine (rewrites names).resolve_right ?_
    rintro ⟨_, inside, -, place, -⟩
    obtain ⟨starter, listed, rfl⟩ := List.mem_map.mp inside
    exact apart starter listed place
  issues _ validates _ mem := issues_of_stored stored validates mem

theorem scaffold_eq_ok {result : Workspace} {force : Bool}
    (h : workspace.scaffold disk force = (.ok result, after)) :
    result = workspace ∧ writeAll workspace.starterWrites disk = (.ok (), after) := by
  rcases workspace.scaffold_cases disk force with
    ⟨error, ends⟩ | ⟨failure, -, ends⟩ | ⟨-, written⟩
  · cases ends.symm.trans h
  · cases ends.symm.trans h
  · obtain ⟨succeeds, last⟩ := Prod.mk.inj (written.symm.trans h)
    obtain ⟨value, writes, same⟩ := Outcome.bind_eq_ok succeeds
    cases same
    exact ⟨rfl, Prod.ext writes last⟩

theorem scaffold_eq_failed {failure : Failure} {force : Bool}
    (h : workspace.scaffold disk force = (.failed failure, after)) :
    after = disk ∨ writeAll workspace.starterWrites disk = (.failed failure, after) := by
  rcases workspace.scaffold_cases disk force with
    ⟨error, ends⟩ | ⟨failure, -, ends⟩ | ⟨-, written⟩
  · cases ends.symm.trans h
  · cases ends.symm.trans h
    exact .inl rfl
  · obtain ⟨fails, last⟩ := Prod.mk.inj (written.symm.trans h)
    refine .inr (Prod.ext ?_ last)
    cases ends : (writeAll workspace.starterWrites disk).1 with
    | ok value =>
      rw [ends] at fails
      cases fails
    | failed first =>
      rw [ends] at fails
      cases fails
      rfl
    | aborted abort =>
      rw [ends] at fails
      cases fails

/-- A scaffold that succeeds leaves the starter documents, which are read and compile, and has
changed nothing else; a validation finds issues in other contracts only. A scaffold that reports an
invalid structure leaves the disk as it was. -/
theorem scaffold_complete (workspace : Workspace) (disk : Disk) (force : Bool) :
    (∀ result after, workspace.scaffold disk force = (.ok result, after) →
      result = workspace ∧ workspace.Scaffolded disk after) ∧
    ∀ failure after, workspace.scaffold disk force = (.failed failure, after) →
      failure.code = .workspaceInvalidStructure → after = disk := by
  refine ⟨fun result after scaffolds => ?_, fun failure after scaffolds code => ?_⟩
  · obtain ⟨rfl, writes⟩ := scaffold_eq_ok scaffolds
    have rewrites := writeAll_rewrites result.starterWrites_enter disk
    rw [writes] at rewrites
    exact ⟨rfl, scaffolded_of_stored (starters_stored writes) rewrites⟩
  · rcases scaffold_eq_failed scaffolds with same | writes
    · exact same
    · obtain ⟨write, mem, before, stopped, fails⟩ := writeAll_eq_failed writes
      obtain ⟨starter, -, enters⟩ := exists_of_forall₂ workspace.starterWrites_enter mem
      exact absurd code (enters.failure fails)

/-- A disk with a directory that has no manifest, but a contract and a theme file that are no
documents. -/
def litteredDisk : Disk := ⟨[("library", .directory [
  ("contracts", .directory [("Card.contract.json", .file [0x7B])]),
  ("tokens", .directory [("semantic.dark.json", .file [])])])]⟩

theorem scaffold_complete_littered :
    (∃ after, scaffold ⟨.ofText "library"⟩ litteredDisk false =
        (.ok ⟨.ofText "library"⟩, after) ∧
      Scaffolded ⟨.ofText "library"⟩ litteredDisk after) ∧
    ∃ failure after, scaffold ⟨.ofText "library"⟩ blockedDisk true = (.failed failure, after) ∧
      failure.code = .workspaceInvalidStructure ∧ after = blockedDisk := by
  refine ⟨?_, ?_⟩
  · have room : (placeAll? ⟨.ofText "library"⟩ Starter.documents litteredDisk).isSome = true := by
      decide +kernel
    obtain ⟨after, places⟩ := Option.isSome_iff_exists.mp room
    have scaffolds : scaffold ⟨.ofText "library"⟩ litteredDisk false =
        (.ok ⟨.ofText "library"⟩, after) := scaffold_of_places rfl places
    exact ⟨after, scaffolds, ((scaffold_complete _ _ _).1 _ after scaffolds).2⟩
  · have refuses : scaffold ⟨.ofText "library"⟩ blockedDisk true =
        (.failed (structureFailure "Not a directory: library" (.ofText "library")),
          blockedDisk) := by
      rfl
    exact ⟨_, _, refuses, rfl, (scaffold_complete _ _ _).2 _ _ refuses rfl⟩

end Workspace
end DesignSystem
