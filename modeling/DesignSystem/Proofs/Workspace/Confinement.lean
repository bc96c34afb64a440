import DesignSystem.Proofs.Disk.Locality
import DesignSystem.Proofs.Workspace.Naming

/-! # Contracts stay in their directory

Whatever name a contract is read or written under, its file stands in the contracts directory
itself, and no other file matters to the read or is changed by the write.

* `Workspace.contract_joined`: a file name made of a contract name is one part of a path.
* `Slot.write_elsewhere`: a write changes nothing but its own file and directories above it.
* `Workspace.contract_confined`: which file the operations on a contract are about.
-/

namespace DesignSystem
set_option autoImplicit false

/-! ## Slots -/

namespace Slot
variable {α : Type} {slot : Slot α} {disk other : Disk}

theorem read_congr (same : disk.readFile slot.path = other.readFile slot.path) :
    slot.read disk = slot.read other := by
  rw [read, read, load, load, same]

/-- However a write ends, elsewhere it has made directories above its path at most. -/
theorem write_elsewhere (slot : Slot α) (disk : Disk) (document : Json) {names : List String}
    (apart : names ≠ slot.path.names) :
    disk.GrowsAt (slot.write disk document).2 slot.path.IsAncestor names := by
  have ends := slot.write_cases disk document
  generalize slot.write disk document = result at ends ⊢
  cases ends with
  | refused => exact .inl rfl
  | accepted _ _ stores =>
    cases stores with
    | written _ wrote | emptied _ wrote => exact wrote.others names apart
    | stopped _ grows => exact grows names

end Slot

theorem Disk.GrowsAt.file_iff {disk after : Disk} {made : List String → Prop} {names : List String}
    (grows : disk.GrowsAt after made names) {content : Bytes} :
    after.node? names = some (.file content) ↔ disk.node? names = some (.file content) := by
  rcases grows with same | ⟨absent, there, -⟩
  · rw [same]
  · simp [absent, there]

/-! ## Files of contracts -/

namespace Workspace

theorem contractFile_safeName_plain (name : String) :
    '/' ∉ (contractFile (safeName name)).toList ∧ '\\' ∉ (contractFile (safeName name)).toList := by
  obtain ⟨noSlash, noBackslash⟩ := safeName_eq_self.mp (safeName_safeName name)
  have suffix : '/' ∉ contractSuffix.toList ∧ '\\' ∉ contractSuffix.toList := by decide
  rw [contractFile, String.toList_append, List.mem_append, List.mem_append, not_or, not_or]
  exact ⟨⟨noSlash, suffix.1⟩, noBackslash, suffix.2⟩

/-- A file name made of a contract name is one part of a path: it is not taken apart, does not take
the place of the directory and is not left out. -/
theorem contract_joined (workspace : Workspace) (name : String) :
    workspace.contractsDirectory.join (contractFile (safeName name)) =
      (workspace.contract name).path :=
  workspace.contractsDirectory.join_eq_child (contractFile_safeName_plain name).1
    (Location.contractFile_ne _ (by decide)) (Location.contractFile_ne _ (by decide))

theorem contract_names (workspace : Workspace) (name : String) :
    (workspace.contract name).path.names =
      workspace.root.names ++ [contractsFolder, contractFile (safeName name)] := by
  rw [(workspace.contract_atLocation name).path, Path.names_below _ (Location.tail_plain _)]
  rfl

/-- Under every name, a contract has a file in the contracts directory itself, whose name has the
ending of contract files and no slash of either kind. Reading the contract does not depend on what
any other file holds; writing it changes no other file. So it is not the file of another document of
the workspace. -/
theorem contract_confined (workspace : Workspace) (name : String) :
    ∃ file, (∃ base, file = base ++ ".contract.json") ∧ '/' ∉ file.toList ∧ '\\' ∉ file.toList ∧
      (workspace.contract name).path = workspace.contractsDirectory.child file ∧
      workspace.contractsDirectory.join (contractFile (safeName name)) =
        workspace.contractsDirectory.child file ∧
      (workspace.contract name).path.names = workspace.root.names ++ ["contracts", file] ∧
      (∀ disk other : Disk, disk.AgreeAt other (workspace.root.names ++ ["contracts", file]) →
        workspace.read disk (.contract name) = workspace.read other (.contract name)) ∧
      (∀ disk argument place content, place ≠ workspace.root.names ++ ["contracts", file] →
        ((workspace.write disk (.contract name) argument).2.node? place = some (.file content) ↔
          disk.node? place = some (.file content))) ∧
      ∀ location : Location, (∀ other, location ≠ .contract other) →
        (workspace.root.below location.tail).names ≠
          workspace.root.names ++ ["contracts", file] := by
  have place := workspace.contract_names name
  obtain ⟨noSlash, noBackslash⟩ := contractFile_safeName_plain name
  refine ⟨contractFile (safeName name), ⟨safeName name, rfl⟩, noSlash, noBackslash, rfl,
    workspace.contract_joined name, place, fun disk other agree => ?_,
    fun disk argument names content apart => ?_, fun location apart same => ?_⟩
  · exact Slot.read_congr (Disk.readFile_of_agreeAt (place ▸ agree))
  · have apart : names ≠ (workspace.contract name).path.names := fun same => apart (same.trans place)
    rw [write_eq rfl]
    exact (Slot.write_elsewhere _ disk argument.document apart).file_iff
  · rw [Path.names_below _ location.tail_plain] at same
    exact apart _ (Location.tail_injective (b := .contract (safeName name))
      (List.append_cancel_left same))

/-- A workspace with core tokens alone. -/
def layerDisk : Disk := ⟨[("library", .directory [
  ("tokens", .directory [("core.json", .file [0x7B, 0x7D])])])]⟩

theorem contract_confined_traversal :
    let workspace : Workspace := ⟨.ofText "library"⟩
    let name := "../tokens/core.json"
    (workspace.contract name).path.names =
      ["library", "contracts", ".._tokens_core.json.contract.json"] ∧
    (∃ after, layerDisk.writeFile (.ofText "library/tokens/core.json") [0x5B] = .ok after ∧
      workspace.read layerDisk (.contract name) = workspace.read after (.contract name)) ∧
    (workspace.write layerDisk (.contract name)
      (.raw Starter.button starter_distinct.2.2.2.2)).1.isOk = true ∧
    (workspace.write layerDisk (.contract name)
      (.raw Starter.button starter_distinct.2.2.2.2)).2.node? ["library", "tokens", "core.json"] =
        some (.file [0x7B, 0x7D]) := by
  intro workspace name
  have succeeds : (layerDisk.writeFile (.ofText "library/tokens/core.json") [0x5B]).isOk = true := by
    decide +kernel
  cases writes : layerDisk.writeFile (.ofText "library/tokens/core.json") [0x5B] with
  | error error => simp [writes, Except.isOk, Except.toBool] at succeeds
  | ok after =>
    obtain ⟨file, -, -, -, -, -, place, reads, keeps, -⟩ := contract_confined workspace name
    have names : (workspace.contract name).path.names =
        ["library", "contracts", ".._tokens_core.json.contract.json"] := by decide +kernel
    rw [← place, names] at reads keeps
    have there : layerDisk.node? (Path.names (.ofText "library/tokens/core.json")) =
        some (.file [0x7B, 0x7D]) := by decide +kernel
    have agree : layerDisk.AgreeAt after
        ["library", "contracts", ".._tokens_core.json.contract.json"] :=
      Disk.agreeAt_of_overwrite writes there (by decide +kernel)
    exact ⟨names, ⟨after, rfl, reads _ _ agree⟩, by decide +kernel,
      (keeps _ _ _ _ (by decide)).mpr (by decide +kernel)⟩

end Workspace
end DesignSystem
