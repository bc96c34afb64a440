import DesignSystem.Proofs.Workspace.Location

/-! # Sound workspaces

* `Workspace.Sound`: at every location at which something is noticed, a document can be read.
* `Workspace.Sound.write`: writes into slots keep a workspace sound, however they end, unless the
  text of a document that is not refused has no bytes.
* `Workspace.writeAll_keeps`: what each of a sequence of writes keeps, all of them keep.
-/

namespace DesignSystem
set_option autoImplicit false

namespace Location

/-- What stands at a location when its document is read in a validation: a manifest and core tokens
are always read, theme and platform files if anything is there, contracts if they are files. -/
def Notices : Location → Option Node → Prop
  | system, _ | core, _ => True
  | semantic _, node | platform _, node => node ≠ none
  | contract _, node => ∃ content, node = some (.file content)

/-- The locations of documents that may be missing. -/
def MayMiss : Location → Prop
  | semantic _ | platform _ => True
  | _ => False

end Location

namespace Workspace

/-- The root is a directory, the contracts in it can be listed, and for each location at which
something is noticed a document can be read; the paths of the others may be used as well. -/
structure Sound (workspace : Workspace) (disk : Disk) (names : List String) : Prop where
  root : disk.HasDirectory workspace.root names
  listable : workspace.contractsDirectory.Usable
  inReach : workspace.ContractsInReach disk names
  usable : ∀ location : Location, location.MayMiss → (workspace.root.below location.tail).Usable
  documents : ∀ location : Location, location.Notices (disk.node? (names ++ location.tail)) →
    workspace.HasDocument disk names location.canonical

variable {workspace : Workspace} {disk after : Disk} {names : List String}

theorem HasDocument.of_same {location : Location}
    (h : workspace.HasDocument disk names location)
    (same : after.node? (names ++ location.tail) = disk.node? (names ++ location.tail)) :
    workspace.HasDocument after names location where
  usable := h.usable
  short := h.short
  document := by
    obtain ⟨bytes, document, file, parses, builds⟩ := h.document
    exact ⟨bytes, document, same.trans file, parses, builds⟩

/-! ## Changes at one location -/

/-- Below the root nothing has changed, but that folders may have been made, at a place. -/
def SettlesAt (disk after : Disk) (names place : List String) : Prop :=
  disk.GrowsAt after
    (fun made => ∃ folder, Location.IsFolder folder ∧ made = names ++ [folder]) place

theorem SettlesAt.same {location : Location}
    (h : SettlesAt disk after names (names ++ location.tail)) :
    after.node? (names ++ location.tail) = disk.node? (names ++ location.tail) := by
  rcases h with same | ⟨-, -, folder, isFolder, place⟩
  · exact same
  · exact absurd (List.append_cancel_left place) (location.tail_ne_folder isFolder)

/-- A workspace stays sound if nothing but one location changes, and a document is there then. -/
theorem Sound.settle (sound : workspace.Sound disk names) (keeps : disk.KeepsDirectories after)
    {location : Location} (canonical : location.canonical = location)
    (others : ∀ place, place ≠ names ++ location.tail → SettlesAt disk after names place)
    (here : workspace.HasDocument after names location ∨
      SettlesAt disk after names (names ++ location.tail)) :
    workspace.Sound after names where
  root := sound.root.kept keeps
  listable := sound.listable
  inReach := by
    refine contractsInReach_iff.mpr fun name there => ?_
    by_cases isHere : Location.contract name = location
    · rcases here with written | settled
      · exact (isHere ▸ written.usable).inReach
      · rw [isHere, settled.same, ← isHere] at there
        exact contractsInReach_iff.mp sound.inReach name there
    · rw [(others _ fun e => isHere (Location.tail_injective (List.append_cancel_left e))).same]
        at there
      exact contractsInReach_iff.mp sound.inReach name there
  usable := sound.usable
  documents := by
    have same : ∀ other : Location, other ≠ location →
        after.node? (names ++ other.tail) = disk.node? (names ++ other.tail) := fun other apart =>
      (others _ fun e => apart (Location.tail_injective (List.append_cancel_left e))).same
    intro found notices
    -- what is read for `found` may stand elsewhere, so both places have to be compared
    rcases here with there | settled
    · by_cases isHere : found.canonical = location
      · exact isHere ▸ there
      · have apart : found ≠ location := fun e => isHere (e ▸ canonical)
        rw [same found apart] at notices
        exact (sound.documents found notices).of_same (same _ isHere)
    · have same : ∀ other : Location,
          after.node? (names ++ other.tail) = disk.node? (names ++ other.tail) := fun other => by
        by_cases isHere : other = location
        · exact isHere ▸ settled.same
        · exact same other isHere
      rw [same found] at notices
      exact (sound.documents found notices).of_same (same _)

/-! ## Writes -/

/-- The directories that a write may make below a root that is there are its folders. -/
theorem settlesAt_of_growsAt (root : disk.HasDirectory workspace.root names) {location : Location}
    {place : List String}
    (h : disk.GrowsAt after (workspace.root.below location.tail).IsAncestor place) :
    SettlesAt disk after names place := by
  rcases h with same | ⟨missing, made, above⟩
  · exact .inl same
  · obtain ⟨k, positive, hk, rfl⟩ := root.missing_ancestor location.tail_plain above missing
    obtain ⟨folder, isFolder, taken⟩ := location.tail_take positive hk
    exact .inr ⟨missing, made, folder, isFolder, by rw [taken]⟩

/-- A write into a slot keeps a workspace sound, whether the document is refused, written, or
stopped by the disk. -/
theorem Sound.write {α : Type} {slot : Slot α} {location : Location}
    (sound : workspace.Sound disk names) (located : workspace.AtLocation slot location)
    (canonical : location.canonical = location) {document : Json} (distinct : document.Distinct)
    (encodes : slot.Refuses document ∨ document.Unicode) :
    workspace.Sound (slot.write disk document).2 names := by
  rcases encodes with refuses | unicode
  · rwa [(Slot.write_refused disk refuses).2]
  have ends := slot.write_cases disk document
  generalize slot.write disk document = result at ends ⊢
  cases ends with
  | refused => exact sound
  | @accepted model _ builds writable stores =>
    cases stores with
    | @written after _ wrote =>
      have keeps := wrote.keepsDirectories
      rw [located.path] at wrote
      obtain ⟨usable, short, file⟩ :=
        ((sound.root.kept keeps).readFile_below location.tail_plain).mp wrote.content
      have place : names ++ location.tail = (workspace.root.below location.tail).names :=
        ((sound.root.reaches_below location.tail_plain).mpr ⟨usable, rfl⟩).names_eq
      refine sound.settle keeps canonical (fun other apart => ?_) (.inl ⟨usable, short, ?_⟩)
      · exact settlesAt_of_growsAt sound.root (wrote.others other (place ▸ apart))
      · exact ⟨_, document, file, Slot.parse_bytes distinct unicode writable,
          (located.builds document).mp ⟨model, builds⟩⟩
    | emptied lone => cases (Slot.unencodable?_eq_none.mpr unicode).symm.trans lone
    | stopped _ grows =>
      rw [located.path] at grows
      exact sound.settle grows.keepsDirectories canonical
        (fun other _ => settlesAt_of_growsAt sound.root (grows other))
        (.inr (settlesAt_of_growsAt sound.root (grows _)))

/-- What each of a sequence of writes keeps, the sequence keeps, also when some of them fail. -/
theorem writeAll_keeps (holds : Disk → Prop) {writes : List Write}
    (each : ∀ write ∈ writes, ∀ disk, holds disk → holds (write disk).2) {disk : Disk}
    (h : holds disk) : holds (writeAll writes disk).2 := by
  induction writes generalizing disk with
  | nil => exact h
  | cons write writes ih =>
    rw [List.forall_mem_cons] at each
    have first := each.1 disk h
    rw [writeAll]
    split
    · next written writes =>
      rw [writes] at first
      exact ih each.2 first
    · next stopped writes =>
      rw [writes] at first
      exact first
    · next written writes =>
      rw [writes] at first
      have rest := ih each.2 first
      split
      · next last all =>
        rw [all] at rest
        exact rest
      · next last _ all =>
        rw [all] at rest
        exact rest

end Workspace
end DesignSystem
