import DesignSystem.Proofs.Disk.Rewrite
import DesignSystem.Proofs.Model.Origin
import DesignSystem.Proofs.Workspace.Slot
import DesignSystem.Proofs.Workspace.Soundness
import DesignSystem.Proofs.Workspace.Starter

/-! # What scaffolding changes

* `Workspace.writeAll_rewrites`: a sequence of writes changes nothing but its files and makes
  directories above them, however many of the writes fail.
* `Workspace.writeAll_reads`: if all of them succeed, all files are there at the end.
* `Workspace.scaffold_of_places`: scaffolding succeeds where all files can be placed.
* `Workspace.scaffold_cases`: a root is refused, and nothing happens, or the starter documents are
  written.
* `Workspace.scaffold_keeps`: without force, a file that was there is kept unless a starter document
  takes its place, and nothing happens where a manifest is found.
* `Workspace.scaffold_keeps_overwritten`: where none is found, files are lost.
-/

namespace DesignSystem
set_option autoImplicit false

namespace Workspace

/-! ## One write -/

variable {workspace : Workspace} {write : Write} {starter : Location × Json} {disk after : Disk}

/-- The file that a starter document goes into, with what it holds then. -/
def starterFile (workspace : Workspace) (starter : Location × Json) : Path × Bytes :=
  (workspace.root.below starter.1.tail, Slot.bytes starter.2)

theorem Enters.wrote {path : Path} (h : workspace.Enters write starter)
    (writes : write disk = (.ok path, after)) :
    disk.Wrote after (workspace.root.below starter.1.tail) (Slot.bytes starter.2) := by
  obtain ⟨-, α, slot, located, -, rfl⟩ := h
  obtain ⟨-, wrote, -⟩ := Slot.write_eq_ok writes
  rwa [located.path] at wrote

theorem Enters.rewrites (h : workspace.Enters write starter) (disk : Disk) :
    disk.Rewrites (write disk).2 (workspace.root.below starter.1.tail).IsAncestor
      [workspace.starterFile starter] := by
  cases ends : (write disk).1.isOk with
  | true =>
    obtain ⟨path, succeeds⟩ := Outcome.exists_of_isOk ends
    exact (h.wrote (Prod.ext succeeds rfl)).rewrites
  | false =>
    obtain ⟨unicode, α, slot, located, -, rfl⟩ := h
    have grows := (Slot.write_stopped ends).resolve_right fun lone => lone.1 unicode
    rw [located.path] at grows
    exact grows.rewrites _

/-! ## Sequences of writes -/

variable {writes : List Write} {starters : List (Location × Json)}

/-- The place of a directory above one of these documents. -/
def IsAbove (workspace : Workspace) (starters : List (Location × Json)) (names : List String) :
    Prop :=
  ∃ starter ∈ starters, (workspace.root.below starter.1.tail).IsAncestor names

theorem writeAll_rewrites (enter : List.Forall₂ workspace.Enters writes starters) (disk : Disk) :
    disk.Rewrites (writeAll writes disk).2 (workspace.IsAbove starters)
      (starters.map workspace.starterFile) := by
  refine writeAll_keeps (disk.Rewrites · _ _) (fun write mem middle before => ?_)
    ((Disk.Grows.refl disk _).rewrites _)
  obtain ⟨starter, listed, enters⟩ := exists_of_forall₂ enter mem
  refine before.trans ((enters.rewrites middle).mono (fun names above => ⟨starter, listed, above⟩)
    fun file mem => ?_)
  rw [List.mem_singleton.mp mem]
  exact List.mem_map_of_mem listed

theorem writeAll_cons_eq_ok {value : Unit}
    (h : writeAll (write :: writes) disk = (.ok value, after)) :
    ∃ path written, write disk = (.ok path, written) ∧
      writeAll writes written = (.ok value, after) := by
  rw [writeAll] at h
  split at h
  · next path written writes => exact ⟨path, written, writes, h⟩
  · cases h
  · split at h <;> cases h

/-- The files of writes at different locations, all of which succeed, are there at the end. -/
theorem writeAll_reads {value : Unit} (enter : List.Forall₂ workspace.Enters writes starters)
    (distinct : (starters.map Prod.fst).Nodup)
    (h : writeAll writes disk = (.ok value, after)) :
    ∀ starter ∈ starters,
      after.readFile (workspace.root.below starter.1.tail) = .ok (Slot.bytes starter.2) := by
  -- a file is there once it is written, and no later write has its place
  induction enter generalizing disk with
  | nil => exact fun _ mem => absurd mem List.not_mem_nil
  | @cons write starter writes starters enters enter ih =>
    obtain ⟨path, written, first, others⟩ := writeAll_cons_eq_ok h
    rw [List.map_cons, List.nodup_cons] at distinct
    have rest := writeAll_rewrites enter written
    rw [others] at rest
    refine List.forall_mem_cons.mpr ⟨rest.readFile ?_ (enters.wrote first).content,
      ih distinct.2 others⟩
    rintro _ inside same
    obtain ⟨later, listed, rfl⟩ := List.mem_map.mp inside
    simp only [starterFile, Path.names_below _ (Location.tail_plain _),
      List.append_cancel_left_eq] at same
    exact distinct.1 (List.mem_map.mpr ⟨later, listed, (Location.tail_injective same).symm⟩)

/-- The disk with documents in their files, if all of them can be placed there. -/
def placeAll? (workspace : Workspace) : List (Location × Json) → Disk → Option Disk
  | [], disk => some disk
  | starter :: starters, disk =>
    (disk.place? (workspace.root.below starter.1.tail) (Slot.bytes starter.2)).bind
      (workspace.placeAll? starters)

/-- Documents that are in order are written where all of them can be placed. -/
theorem writeAll_of_places (enter : List.Forall₂ workspace.Enters writes starters)
    (writable : ∀ starter ∈ starters, starter.2.unwritable? true = none)
    (builds : ∀ starter ∈ starters, starter.1.Builds starter.2)
    (places : workspace.placeAll? starters disk = some after) :
    writeAll writes disk = (.ok (), after) := by
  induction enter generalizing disk with
  | nil =>
    cases places
    rfl
  | @cons write starter writes starters enters enter ih =>
    rw [List.forall_mem_cons] at writable builds
    obtain ⟨placed, first, rest⟩ := Option.bind_eq_some_iff.mp places
    obtain ⟨unicode, α, slot, located, -, rfl⟩ := enters
    obtain ⟨model, model_builds⟩ := (located.builds starter.2).mpr builds.1
    rw [← located.path] at first
    rw [writeAll, Slot.write_of_place model_builds writable.1 unicode first]
    exact ih writable.2 builds.2 rest

/-! ## Scaffolding -/

/-- A root is refused and nothing happens, or the starter documents are written. -/
theorem scaffold_cases (workspace : Workspace) (disk : Disk) (force : Bool) :
    (∃ error, workspace.scaffold disk force = (.aborted (.disk error), disk)) ∨
    (∃ failure, workspace.refusal? disk force = .ok (some failure) ∧
      workspace.scaffold disk force = (.failed failure, disk)) ∨
    (workspace.refusal? disk force = .ok none ∧ workspace.scaffold disk force =
      ((writeAll workspace.starterWrites disk).1.bind fun _ => .ok workspace,
        (writeAll workspace.starterWrites disk).2)) := by
  unfold scaffold
  cases workspace.refusal? disk force with
  | error error => exact .inl ⟨error, rfl⟩
  | ok refused =>
    cases refused with
    | some failure => exact .inr (.inl ⟨failure, rfl, rfl⟩)
    | none => exact .inr (.inr ⟨rfl, rfl⟩)

theorem scaffold_of_places {force : Bool} (accepts : workspace.refusal? disk force = .ok none)
    (places : workspace.placeAll? Starter.documents disk = some after) :
    workspace.scaffold disk force = (.ok workspace, after) := by
  rw [scaffold, accepts]
  simp only [writeAll_of_places workspace.starterWrites_enter Starter.documents_writable
    Starter.documents_build places]
  rfl

theorem isThere_of_accepted (h : workspace.refusal? disk false = .ok none) :
    disk.isThere workspace.system.path = .ok false := by
  obtain ⟨taken, found, h⟩ := bind_eq_ok h
  cases taken with
  | true => cases h
  | false => exact found

/-- Where a root is no detour over a directory that is missing, and no manifest is found, no file
has the place of the manifest. -/
theorem node?_system (absent : disk.isThere workspace.system.path = .ok false)
    (leads : ".." ∉ workspace.root.parts ∨ disk.isDirectory workspace.root = .ok true)
    (usable : (workspace.root.below Location.system.tail).Usable) :
    disk.node? (workspace.root.below Location.system.tail).names = none := by
  have reaches : ∃ names, disk.Reaches (workspace.root.below Location.system.tail) names := by
    rcases leads with plain | directory
    · refine ⟨_, usable, disk.descend_plain [] ?_⟩
      rw [Path.below, List.mem_append, not_or]
      exact ⟨plain, Location.system.tail_plain⟩
    · obtain ⟨names, root⟩ := Disk.isDirectory_eq_ok.mp directory
      exact ⟨_, (root.reaches_below Location.system.tail_plain).mpr ⟨usable, rfl⟩⟩
  obtain ⟨names, reaches⟩ := reaches
  rw [← reaches.names_eq]
  exact Disk.node?_of_isThere reaches absent

/-- Without force, a manifest that is found stops the scaffolding before anything happens. A file
that was there stays as it is unless no manifest is found and a starter document takes its place.
The manifest takes the place of a file only under a root that leads over a missing directory. -/
theorem scaffold_keeps (workspace : Workspace) (disk : Disk) :
    (disk.isThere workspace.system.path = .ok true → ∃ failure,
      failure.code = .workspaceInvalidStructure ∧
        workspace.scaffold disk false = (.failed failure, disk)) ∧
    ∀ names content, disk.node? names = some (.file content) →
      (workspace.scaffold disk false).2.node? names = some (.file content) ∨
      disk.isThere workspace.system.path = .ok false ∧
        ∃ starter ∈ Starter.documents, names = (workspace.root.below starter.1.tail).names ∧
          (workspace.scaffold disk false).2.node? names = some (.file (Slot.bytes starter.2)) ∧
          (starter.1 = .system →
            ".." ∈ workspace.root.parts ∧ disk.isDirectory workspace.root ≠ .ok true) := by
  refine ⟨fun taken => ?_, fun names content there => ?_⟩
  · refine ⟨structureFailure "Workspace already exists. Use force to overwrite."
      workspace.system.path, rfl, ?_⟩
    rw [scaffold, refusal?, taken]
    rfl
  · rcases workspace.scaffold_cases disk false with
      ⟨error, same⟩ | ⟨failure, -, same⟩ | ⟨accepted, written⟩
    · exact .inl (by rw [same, there])
    · exact .inl (by rw [same, there])
    · have rewrites := writeAll_rewrites workspace.starterWrites_enter disk
      rw [written]
      refine (rewrites.file there).imp_right ?_
      rintro ⟨_, inside, usable, place, -, holds⟩
      obtain ⟨starter, listed, rfl⟩ := List.mem_map.mp inside
      have absent := isThere_of_accepted accepted
      refine ⟨absent, starter, listed, place, holds, fun isSystem => ?_⟩
      rw [starterFile, isSystem] at usable place
      refine ⟨?_, fun directory => ?_⟩
      · by_contra plain
        rw [place, node?_system absent (.inl plain) usable] at there
        cases there
      · rw [place, node?_system absent (.inr directory) usable] at there
        cases there

/-- Core tokens with a token of one's own. -/
def ownTokens : Json := .object [("tokens", .object [("mine", .object [("value", .int 1)])])]

/-- A disk with a workspace that has a file besides its core tokens and may have a manifest. -/
def startedDisk (manifest : List (String × Entry)) : Disk := ⟨[("library", .directory (manifest ++ [
  ("notes", .file [0x68]),
  ("tokens", .directory [("core.json", .file (Slot.bytes ownTokens))])]))]⟩

theorem scaffold_startedDisk : ∃ after,
    scaffold ⟨.ofText "library"⟩ (startedDisk []) false = (.ok ⟨.ofText "library"⟩, after) ∧
    after.node? ["library", "tokens", "core.json"] ≠ some (.file (Slot.bytes ownTokens)) := by
  have accepts : refusal? ⟨.ofText "library"⟩ (startedDisk []) false = .ok none := rfl
  have places : (placeAll? ⟨.ofText "library"⟩ Starter.documents (startedDisk [])).any (fun after =>
      after.node? ["library", "tokens", "core.json"] ≠ some (.file (Slot.bytes ownTokens))) =
        true := by decide +kernel
  obtain ⟨after, places, lost⟩ := (Option.any_eq_true _ _).mp places
  exact ⟨after, scaffold_of_places accepts places, of_decide_eq_true lost⟩

theorem scaffold_keeps_started :
    (∃ failure, failure.code = .workspaceInvalidStructure ∧
      scaffold ⟨.ofText "library"⟩ (startedDisk [("system.json", .file [])]) false =
        (.failed failure, startedDisk [("system.json", .file [])])) ∧
    (scaffold ⟨.ofText "library"⟩ (startedDisk []) false).1.isOk = true ∧
    (scaffold ⟨.ofText "library"⟩ (startedDisk []) false).2.node? ["library", "notes"] =
      some (.file [0x68]) := by
  obtain ⟨after, writes, -⟩ := scaffold_startedDisk
  refine ⟨(scaffold_keeps ⟨.ofText "library"⟩ _).1 rfl, congrArg (·.1.isOk) writes, ?_⟩
  have kept :=
    (scaffold_keeps ⟨.ofText "library"⟩ (startedDisk [])).2 ["library", "notes"] [0x68] rfl
  rcases kept with same | ⟨-, starter, listed, place, -⟩
  · exact same
  · have elsewhere : ∀ starter ∈ Starter.documents,
        ["library", "notes"] ≠ (Path.below (.ofText "library") starter.1.tail).names := by
      decide
    exact absurd place (elsewhere starter listed)

/-- Where no manifest is found, a file that was there may be lost. -/
theorem scaffold_keeps_overwritten :
    (scaffold ⟨.ofText "library"⟩ (startedDisk []) false).1.isOk = true ∧
    (startedDisk []).node? ["library", "tokens", "core.json"] =
      some (.file (Slot.bytes ownTokens)) ∧
    (scaffold ⟨.ofText "library"⟩ (startedDisk []) false).2.node?
      ["library", "tokens", "core.json"] ≠ some (.file (Slot.bytes ownTokens)) := by
  obtain ⟨after, writes, lost⟩ := scaffold_startedDisk
  rw [writes]
  exact ⟨rfl, rfl, lost⟩

end Workspace
end DesignSystem
