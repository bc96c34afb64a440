import DesignSystem.Proofs.Disk.Below
import DesignSystem.Proofs.Workspace.Operation
import DesignSystem.Proofs.Workspace.Slot

/-! # Where the documents of a workspace are

* `Location`: the place of a document below the root, and the kind that stands there.
* `Location.tail_injective`: no two documents share a place.
* `Location.HasDocument`: a document of the kind is at its place.
* `Workspace.exists_atLocation`: every slot is at a location.
* `Workspace.contractNames_returns`, `Workspace.mem_contractNames`: when the names of contracts are
  listed, and that they are those of the files in their directory.
-/

namespace DesignSystem
set_option autoImplicit false

/-! ## Locations -/

/-- The place of a document in a workspace; a contract goes by the name in its file name. -/
inductive Location where
  | system
  | core
  | semantic (theme : Theme)
  | platform (target : Platform)
  | contract (name : String)

namespace Location

/-- The names below the root. -/
def tail : Location → List String
  | system => [systemFile]
  | core => [tokensFolder, coreFile]
  | semantic theme => [tokensFolder, semanticFile theme]
  | platform target => [tokensFolder, platformFile target]
  | contract name => [contractsFolder, contractFile name]

/-- Whether a document builds a model of the kind that stands at a location. -/
def Builds : Location → Json → Prop
  | system, document => ∃ model, Schema.system.build document = .ok (.ok model)
  | core, document => ∃ model, Schema.core.build document = .ok (.ok model)
  | semantic _, document => ∃ model, Schema.semantic.build document = .ok (.ok model)
  | platform _, document => ∃ model, Schema.platform.build document = .ok (.ok model)
  | contract _, document => ∃ model, Schema.contract.build document = .ok (.ok model)

theorem contractFile_ne (name : String) {other : String} (h : other.length < 14) :
    contractFile name ≠ other := by
  intro e
  have length := congrArg String.length e
  rw [contractFile, contractSuffix, String.length_append] at length
  have suffix : ".contract.json".length = 14 := by decide
  omega

theorem contractFile_injective {a b : String} (h : contractFile a = contractFile b) : a = b := by
  have lists := congrArg String.toList h
  simp only [contractFile, String.toList_append, List.append_cancel_right_eq] at lists
  exact String.toList_inj.mp lists

/-- No name at a location is a double dot. -/
theorem tail_plain (location : Location) : ".." ∉ location.tail := by
  cases location with
  | system => decide
  | core => decide
  | semantic theme => cases theme <;> decide
  | platform target => cases target <;> decide
  | contract name =>
    have file : contractFile name ≠ ".." := contractFile_ne name (by decide)
    have folder : ".." ≠ contractsFolder := by decide
    simp [tail, folder, Ne.symm file]

/-- No two documents share a place. -/
theorem tail_injective {a b : Location} (h : a.tail = b.tail) : a = b := by
  rcases a with _ | _ | (_ | _) | (_ | _) | name <;>
    rcases b with _ | _ | (_ | _) | (_ | _) | other
  case contract.contract =>
    simp only [tail, List.cons.injEq, and_true, true_and] at h
    rw [contractFile_injective h]
  all_goals first
    | rfl
    | exact absurd h (by decide)
    | exact absurd (List.cons.inj h).1 (by decide)

/-- A directory that documents stand in. -/
def IsFolder (folder : String) : Prop := folder = tokensFolder ∨ folder = contractsFolder

theorem folder_plain {folder : String} (h : IsFolder folder) : ".." ∉ [folder] := by
  rcases h with rfl | rfl <;> decide

theorem folder_short {folder : String} (h : IsFolder folder) : Disk.Short [folder] := by
  rcases h with rfl | rfl <;> decide

/-- Above a document, below the root, there is its folder at most. -/
theorem tail_take (location : Location) {k : Nat} (positive : 0 < k)
    (hk : k < location.tail.length) :
    ∃ folder, IsFolder folder ∧ location.tail.take k = [folder] := by
  cases location with
  | system => exact absurd hk (Nat.not_lt.mpr positive)
  | core | semantic | platform =>
    obtain rfl : k = 1 := Nat.le_antisymm (Nat.le_of_lt_succ hk) positive
    exact ⟨tokensFolder, .inl rfl, rfl⟩
  | contract =>
    obtain rfl : k = 1 := Nat.le_antisymm (Nat.le_of_lt_succ hk) positive
    exact ⟨contractsFolder, .inr rfl, rfl⟩

/-- The location that is read for what is found at a location: the names of contracts lose their
slashes. -/
def canonical : Location → Location
  | contract name => contract (safeName name)
  | location => location

theorem tail_ne_folder (location : Location) {folder : String} (h : IsFolder folder) :
    location.tail ≠ [folder] := by
  cases location with
  | system => rcases h with rfl | rfl <;> decide
  | core | semantic | platform | contract => simp [tail]

end Location

/-! ## Documents at locations -/

namespace Workspace

/-- A file name is made of a contract name once and for all. -/
theorem safeName_safeName (name : String) : safeName (safeName name) = safeName name := by
  simp only [safeName, String.toList_ofList, List.map_map]
  congr 1
  refine List.map_congr_left fun c _ => ?_
  simp only [Function.comp_apply]
  split <;> rfl

/-- A slot is at a location, and builds what the kind of document there builds. -/
structure AtLocation {α : Type} (workspace : Workspace) (slot : Slot α) (location : Location) :
    Prop where
  path : slot.path = workspace.root.below location.tail
  builds : ∀ document, (∃ model, slot.build document = .ok model) ↔ location.Builds document

theorem system_atLocation (workspace : Workspace) :
    workspace.AtLocation workspace.system .system :=
  ⟨rfl, fun _ => exists_congr fun _ => Slot.build_eq_ok⟩

theorem core_atLocation (workspace : Workspace) : workspace.AtLocation workspace.core .core :=
  ⟨by simp [core, tokensDirectory, Path.child, Path.below, Location.tail],
    fun _ => exists_congr fun _ => Slot.build_eq_ok⟩

theorem semantic_atLocation (workspace : Workspace) (theme : Theme) :
    workspace.AtLocation (workspace.semantic theme) (.semantic theme) :=
  ⟨by simp [semantic, tokensDirectory, Path.child, Path.below, Location.tail],
    fun _ => exists_congr fun _ => Slot.build_eq_ok⟩

theorem platform_atLocation (workspace : Workspace) (target : Platform) :
    workspace.AtLocation (workspace.platform target) (.platform target) :=
  ⟨by simp [platform, tokensDirectory, Path.child, Path.below, Location.tail],
    fun _ => exists_congr fun _ => Slot.build_eq_ok⟩

theorem contract_atLocation (workspace : Workspace) (name : String) :
    workspace.AtLocation (workspace.contract name) (.contract (safeName name)) :=
  ⟨by simp [contract, contractsDirectory, Path.child, Path.below, Location.tail],
    fun _ => exists_congr fun _ => Slot.build_eq_ok⟩

/-- Every slot is at a location, and what is found there is read from it. -/
theorem exists_atLocation {workspace : Workspace} {address : Address} {slot : Slot address.Model}
    (h : workspace.slot address = .ok slot) :
    ∃ location, workspace.AtLocation slot location ∧ location.canonical = location := by
  cases address with
  | system =>
    cases h
    exact ⟨_, workspace.system_atLocation, rfl⟩
  | core =>
    cases h
    exact ⟨_, workspace.core_atLocation, rfl⟩
  | semantic word =>
    obtain ⟨theme, -, rfl⟩ := map_eq_ok h
    exact ⟨_, workspace.semantic_atLocation theme, rfl⟩
  | platform word =>
    obtain ⟨target, -, rfl⟩ := map_eq_ok h
    exact ⟨_, workspace.platform_atLocation target, rfl⟩
  | contract name =>
    cases h
    exact ⟨_, workspace.contract_atLocation name, by rw [Location.canonical, safeName_safeName]⟩

end Workspace

/-- A document of the kind that stands at a location is there, below a root with these names. -/
structure Workspace.HasDocument (workspace : Workspace) (disk : Disk) (names : List String)
    (location : Location) : Prop where
  usable : (workspace.root.below location.tail).Usable
  short : Disk.Short (names ++ location.tail)
  document : ∃ bytes document, disk.node? (names ++ location.tail) = some (.file bytes) ∧
    Slot.parse bytes = .ok document ∧ location.Builds document

namespace Workspace

/-- A slot is read if there is a document at its location. -/
theorem AtLocation.read_iff {α : Type} {workspace : Workspace} {slot : Slot α}
    {location : Location} (located : workspace.AtLocation slot location) {disk : Disk}
    {names : List String} (root : disk.HasDirectory workspace.root names) :
    (∃ model, slot.read disk = .ok model) ↔ workspace.HasDocument disk names location := by
  simp only [Slot.read_eq_ok, located.path, root.readFile_below location.tail_plain]
  constructor
  · rintro ⟨model, bytes, document, ⟨usable, short, file⟩, parses, builds⟩
    exact ⟨usable, short, bytes, document, file, parses,
      (located.builds document).mp ⟨model, Slot.build_eq_ok.mpr builds⟩⟩
  · rintro ⟨usable, short, bytes, document, file, parses, builds⟩
    obtain ⟨model, builds⟩ := (located.builds document).mpr builds
    exact ⟨model, bytes, document, ⟨usable, short, file⟩, parses, Slot.build_eq_ok.mp builds⟩

/-! ## Names of contracts -/

theorem withoutSuffix?_eq_some {suffix name base : String} :
    withoutSuffix? suffix name = some base ↔ name = base ++ suffix := by
  simp only [withoutSuffix?, ← String.toList_inj, String.toList_append]
  constructor
  · intro h
    split at h
    · next ends =>
      obtain ⟨front, whole⟩ := List.isSuffixOf_iff_suffix.mp ends
      rw [← whole, List.length_append, Nat.add_sub_cancel, List.take_left] at h
      rw [← Option.some.inj h, String.toList_ofList, whole]
    · cases h
  · intro h
    have ends : suffix.toList.isSuffixOf name.toList = true :=
      List.isSuffixOf_iff_suffix.mpr ⟨base.toList, h.symm⟩
    rw [if_pos ends, h, List.length_append, Nat.add_sub_cancel, List.take_left,
      String.ofList_toList]

theorem endsIn_iff {suffix name : String} :
    endsIn suffix name = true ↔ ∃ base, name = base ++ suffix := by
  simp only [endsIn, Option.isSome_iff_exists, withoutSuffix?_eq_some]

theorem endsIn_contractFile (name : String) : endsIn contractSuffix (contractFile name) = true :=
  endsIn_iff.mpr ⟨name, rfl⟩

/-- Nothing with the name of a contract file stands under a path that is too long. -/
def ContractsInReach (workspace : Workspace) (disk : Disk) (names : List String) : Prop :=
  disk.InReach workspace.root names contractsFolder (endsIn contractSuffix)

variable {workspace : Workspace} {disk : Disk} {names : List String}

theorem contractsInReach_iff : workspace.ContractsInReach disk names ↔
    ∀ name, disk.node? (names ++ (Location.contract name).tail) ≠ none →
      Disk.isOverlong (workspace.root.below (Location.contract name).tail) = false := by
  constructor
  · intro reach name there
    exact reach (contractFile name) (endsIn_contractFile name) there
  · intro reach file ends there
    obtain ⟨name, rfl⟩ := endsIn_iff.mp ends
    exact reach name there

/-- The names of the contracts are listed if the contract files are. -/
theorem contractNames_returns_iff : (∃ found, workspace.contractNames disk = .ok found) ↔
    ∃ files, disk.fileNames workspace.contractsDirectory (endsIn contractSuffix) = .ok files :=
  exists_bind_pure

theorem contractFile_of_contractNames {found : List String}
    (lists : workspace.contractNames disk = .ok found) :
    ∃ files, disk.fileNames workspace.contractsDirectory (endsIn contractSuffix) = .ok files ∧
      ∀ name, name ∈ found ↔ contractFile name ∈ files := by
  obtain ⟨files, listed, rest⟩ := bind_eq_ok lists
  cases rest
  refine ⟨files, listed, fun name => ?_⟩
  rw [List.mem_mergeSort, List.mem_filterMap]
  simp only [withoutSuffix?_eq_some]
  exact exists_eq_right

/-- The contracts can be listed if their files are in reach. -/
theorem contractNames_returns (root : disk.HasDirectory workspace.root names)
    (usable : workspace.contractsDirectory.Usable) :
    (∃ found, workspace.contractNames disk = .ok found) ↔
      workspace.ContractsInReach disk names :=
  contractNames_returns_iff.trans
    (root.fileNames_below (Location.folder_plain (.inr rfl)) (Location.folder_short (.inr rfl))
      usable)

/-- The names of the contracts are those whose files are there. -/
theorem mem_contractNames {found : List String} (root : disk.HasDirectory workspace.root names)
    (usable : workspace.contractsDirectory.Usable)
    (lists : workspace.contractNames disk = .ok found) (name : String) :
    name ∈ found ↔ ∃ content,
      disk.node? (names ++ [contractsFolder, contractFile name]) = some (.file content) := by
  obtain ⟨files, listed, mem⟩ := contractFile_of_contractNames lists
  rw [mem, root.mem_fileNames_below (Location.folder_plain (.inr rfl))
    (Location.folder_short (.inr rfl)) usable listed, and_iff_right (endsIn_contractFile name)]

end Workspace
end DesignSystem
