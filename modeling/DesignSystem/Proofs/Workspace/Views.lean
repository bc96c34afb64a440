import DesignSystem.Proofs.Model.Settled
import DesignSystem.Proofs.Workspace.Report
import Mathlib.Data.Set.Card

/-! # The views of a workspace agree

The names of contracts, the token files by layer and the tree are read off the same two
directories.

* `TokenFiles.layer`: the files of a layer, one for each member of a vocabulary.
* `TokenFiles.IsRecognised`: the names of token files.
* `Workspace.ListsContracts`, `Disk.ListsJson`, `Workspace.ListsTokens`: what each view shows of the
  regular files in a directory.
* `Workspace.views_agree`: the views show this whenever they return, and they return unless a path
  is too long.
-/

namespace DesignSystem
set_option autoImplicit false

/-! ## Layers of token files -/

namespace TokenFiles

/-- The files of a layer among file names, with the member that each is for. -/
def layer {α : Type} [Vocabulary α] (file : α → String) (names : List String) : List (String × α) :=
  names.filterMap fun name => (Vocabulary.members.find? (file · == name)).map (name, ·)

theorem ofNames_eq (names : List String) : ofNames names =
    ⟨names.filter (· == coreFile), layer semanticFile names, layer platformFile names⟩ := rfl

section
variable {α : Type} [Vocabulary α] {file : α → String} {names : List String}

theorem mem_layer (lawful : Vocabulary.Lawful α) (injective : Function.Injective file)
    {name : String} {member : α} :
    (name, member) ∈ layer file names ↔ name = file member ∧ name ∈ names := by
  have found : ∀ name, Vocabulary.members.find? (file · == name) = some member ↔
      name = file member := by
    intro name
    constructor
    · intro finds
      exact (beq_iff_eq.mp (List.find?_some (p := (file · == name)) finds)).symm
    · rintro rfl
      cases finds : Vocabulary.members.find? (file · == file member) with
      | none => exact absurd (beq_self_eq_true _) (List.find?_eq_none.mp finds _ (lawful.mem member))
      | some other =>
        exact congrArg some (injective (beq_iff_eq.mp
          (List.find?_some (p := (file · == file member)) finds)))
  rw [layer, List.mem_filterMap]
  constructor
  · rintro ⟨other, mem, finds⟩
    obtain ⟨_, finds, same⟩ := Option.map_eq_some_iff.mp finds
    cases same
    exact ⟨(found name).mp finds, mem⟩
  · rintro ⟨named, mem⟩
    exact ⟨name, mem, by rw [(found name).mpr named]; rfl⟩

theorem layer_sublist (file : α → String) (names : List String) :
    ((layer file names).map Prod.fst).Sublist names := by
  induction names with
  | nil => exact .slnil
  | cons name names ih =>
    cases finds : Vocabulary.members.find? (file · == name) with
    | none => simpa [layer, finds] using ih.cons name
    | some member => simpa [layer, finds] using ih.cons_cons name

theorem mem_files_layer (lawful : Vocabulary.Lawful α) (injective : Function.Injective file)
    {name : String} :
    name ∈ (layer file names).map Prod.fst ↔ (∃ member, name = file member) ∧ name ∈ names := by
  simp only [List.mem_map, Prod.exists, exists_and_right, exists_eq_right,
    mem_layer lawful injective]

end

theorem semanticFile_injective : Function.Injective semanticFile := by
  intro a b
  cases a <;> cases b <;> decide

theorem platformFile_injective : Function.Injective platformFile := by
  intro a b
  cases a <;> cases b <;> decide

/-- The files of all layers. -/
def listed (files : TokenFiles) : List String :=
  files.core ++ (files.semantic.map Prod.fst ++ files.platform.map Prod.fst)

/-- A name of a token file. -/
def IsRecognised (file : String) : Prop :=
  file = coreFile ∨ (∃ theme, file = semanticFile theme) ∨ ∃ target, file = platformFile target

theorem length_listed (files : TokenFiles) : files.listed.length = files.count := by
  simp only [listed, count, List.length_append, List.length_map, Nat.add_assoc]

theorem mem_listed_ofNames {names : List String} {file : String} :
    file ∈ (ofNames names).listed ↔ IsRecognised file ∧ file ∈ names := by
  simp only [listed, ofNames_eq, List.mem_append, List.mem_filter, beq_iff_eq,
    mem_files_layer Theme.lawful semanticFile_injective,
    mem_files_layer Platform.lawful platformFile_injective, IsRecognised]
  tauto

/-- A file is in one layer only. -/
theorem nodup_listed_ofNames {names : List String} (distinct : names.Nodup) :
    (ofNames names).listed.Nodup := by
  have themes := (layer_sublist semanticFile names).nodup distinct
  have targets := (layer_sublist platformFile names).nodup distinct
  simp only [listed, ofNames_eq, List.nodup_append, List.mem_append, List.mem_filter, beq_iff_eq,
    mem_files_layer Theme.lawful semanticFile_injective,
    mem_files_layer Platform.lawful platformFile_injective]
  refine ⟨distinct.filter _, ⟨themes, targets, ?_⟩, ?_⟩
  · rintro _ ⟨⟨theme, rfl⟩, -⟩ _ ⟨⟨target, rfl⟩, -⟩
    cases theme <;> cases target <;> decide
  · rintro _ ⟨-, rfl⟩ _ (⟨⟨theme, rfl⟩, -⟩ | ⟨⟨target, rfl⟩, -⟩)
    · cases theme <;> decide
    · cases target <;> decide

theorem IsRecognised.json {file : String} (h : IsRecognised file) :
    ∃ base, file = base ++ ".json" := by
  rcases h with rfl | ⟨theme, rfl⟩ | ⟨target, rfl⟩
  · exact ⟨"core", by decide⟩
  · exact ⟨s!"semantic.{Vocabulary.word theme}", by cases theme <;> decide⟩
  · exact ⟨s!"platform.{Vocabulary.word target}", by cases target <;> decide⟩

end TokenFiles

/-! ## JSON files -/

theorem json_ne_dots {name : String} (h : ∃ base, name = base ++ ".json") : name ≠ ".." := by
  rintro rfl
  obtain ⟨base, same⟩ := h
  have length := congrArg String.length same
  rw [String.length_append] at length
  have dots : "..".length = 2 ∧ ".json".length = 5 := by decide
  omega

theorem contractFile_json (name : String) : ∃ base, contractFile name = base ++ ".json" := by
  refine ⟨name ++ ".contract", ?_⟩
  rw [contractFile, String.append_assoc]
  rfl

/-- Texts name the regular files in a directory whose names have the ending of JSON files, by code
point and behind the name of the directory. -/
structure Disk.ListsJson (disk : Disk) (directory : Path) (folder : String) (texts : List String) :
    Prop where
  increasing : texts.Pairwise (· < ·)
  files : ∀ text, text ∈ texts ↔ ∃ name, text = s!"{folder}/{name}" ∧
    (∃ base, name = base ++ ".json") ∧ disk.HasFile (directory.child name)

theorem toList_slash (folder name : String) :
    s!"{folder}/{name}".toList = (folder ++ "/").toList ++ name.toList := String.toList_append

theorem slash_injective (folder : String) :
    Function.Injective fun name : String => s!"{folder}/{name}" := by
  intro a b same
  have lists := congrArg String.toList same
  simp only [toList_slash] at lists
  exact String.toList_inj.mp (List.append_cancel_left lists)

theorem slash_lt (folder : String) {a b : String} (h : a < b) :
    s!"{folder}/{a}" < s!"{folder}/{b}" := by
  rw [String.lt_iff, toList_slash, toList_slash]
  exact List.append_left_lt (String.lt_iff.mp h)

theorem Disk.ListsJson.mem {disk : Disk} {directory : Path} {folder : String} {texts : List String}
    (h : disk.ListsJson directory folder texts) {name : String}
    (json : ∃ base, name = base ++ ".json") :
    s!"{folder}/{name}" ∈ texts ↔ disk.HasFile (directory.child name) := by
  rw [h.files]
  constructor
  · rintro ⟨other, same, -, file⟩
    rwa [slash_injective folder same]
  · intro file
    exact ⟨name, rfl, json, file⟩

namespace Workspace
variable {workspace : Workspace} {disk : Disk}

theorem jsonFiles_listsJson (named : disk.top.Named) {directory : Path} {folder : String}
    {texts : List String} (lists : jsonFiles disk directory folder = .ok texts) :
    disk.ListsJson directory folder texts := by
  obtain ⟨names, listed, h⟩ := bind_eq_ok lists
  cases h
  refine ⟨(Disk.increasing_fileNames listed).map _ fun a b => slash_lt folder, fun text => ?_⟩
  rw [List.mem_map]
  refine exists_congr fun name => ?_
  constructor
  · rintro ⟨mem, rfl⟩
    obtain ⟨-, -, -, -, -, -, wanted, -⟩ := Disk.listed_of_mem_fileNames listed mem
    have json := endsIn_iff.mp wanted
    exact ⟨rfl, json, ((Disk.mem_fileNames named listed (json_ne_dots json)).mp mem).2⟩
  · rintro ⟨rfl, json, file⟩
    exact ⟨(Disk.mem_fileNames named listed (json_ne_dots json)).mpr ⟨endsIn_iff.mpr json, file⟩,
      rfl⟩

theorem jsonFiles_returns {directory : Path} {folder : String} :
    (∃ texts, jsonFiles disk directory folder = .ok texts) ↔
      disk.Listable directory (endsIn ".json") :=
  exists_bind_pure.trans Disk.fileNames_returns

theorem jsonFiles_missing {directory : Path} (missing : disk.isDirectory directory = .ok false)
    (folder : String) : jsonFiles disk directory folder = .ok [] := by
  rw [jsonFiles, Disk.fileNames_missing missing]
  rfl

theorem tree_eq_ok {tree : WorkspaceTree} (h : workspace.tree disk = .ok tree) :
    jsonFiles disk workspace.tokensDirectory tokensFolder = .ok tree.tokens ∧
      jsonFiles disk workspace.contractsDirectory contractsFolder = .ok tree.contracts := by
  obtain ⟨hasSystem, -, h⟩ := bind_eq_ok h
  obtain ⟨tokens, ofTokens, h⟩ := bind_eq_ok h
  obtain ⟨contracts, ofContracts, h⟩ := bind_eq_ok h
  cases h
  exact ⟨ofTokens, ofContracts⟩

theorem tree_returns : (∃ tree, workspace.tree disk = .ok tree) ↔
    (∃ there, disk.isFile workspace.system.path = .ok there) ∧
      disk.Listable workspace.tokensDirectory (endsIn ".json") ∧
      disk.Listable workspace.contractsDirectory (endsIn ".json") := by
  rw [← @jsonFiles_returns disk workspace.tokensDirectory tokensFolder,
    ← @jsonFiles_returns disk workspace.contractsDirectory contractsFolder, tree]
  cases disk.isFile workspace.system.path <;>
    cases jsonFiles disk workspace.tokensDirectory tokensFolder <;>
    cases jsonFiles disk workspace.contractsDirectory contractsFolder <;>
    simp [bind, Except.bind, pure, Except.pure]

/-! ## Contracts -/

/-- Names are those of the contract files that are regular files, by code point. -/
structure ListsContracts (workspace : Workspace) (disk : Disk) (names : List String) : Prop where
  increasing : names.Pairwise (· < ·)
  files : ∀ name, name ∈ names ↔
    disk.HasFile (workspace.contractsDirectory.child (contractFile name))

theorem contractNames_listsContracts (named : disk.top.Named) {contracts : List String}
    (lists : workspace.contractNames disk = .ok contracts) :
    workspace.ListsContracts disk contracts := by
  refine ⟨increasing_contractNames lists, fun name => ?_⟩
  obtain ⟨files, listed, mem⟩ := contractFile_of_contractNames lists
  rw [mem, Disk.mem_fileNames named listed (json_ne_dots (contractFile_json name)),
    and_iff_right (endsIn_contractFile name)]

theorem contractNames_missing (missing : disk.isDirectory workspace.contractsDirectory = .ok false) :
    workspace.contractNames disk = .ok [] := by
  rw [contractNames, Disk.fileNames_missing missing]
  exact congrArg Except.ok List.mergeSort_nil

/-! ## Token files -/

/-- Token files are listed by layer: each regular file with the name of one once, with the theme or
platform that the name is for. -/
structure ListsTokens (workspace : Workspace) (disk : Disk) (files : TokenFiles) : Prop where
  core : ∀ file, file ∈ files.core ↔
    file = coreFile ∧ disk.HasFile (workspace.tokensDirectory.child file)
  semantic : ∀ file theme, (file, theme) ∈ files.semantic ↔
    file = semanticFile theme ∧ disk.HasFile (workspace.tokensDirectory.child file)
  platform : ∀ file target, (file, target) ∈ files.platform ↔
    file = platformFile target ∧ disk.HasFile (workspace.tokensDirectory.child file)
  once : files.listed.Nodup
  count : files.count = Set.ncard {file : String | TokenFiles.IsRecognised file ∧
    disk.HasFile (workspace.tokensDirectory.child file)}

theorem mem_tokenNames (named : disk.top.Named) {names : List String}
    (lists : disk.fileNames workspace.tokensDirectory (fun _ => true) = .ok names) {file : String}
    (recognised : TokenFiles.IsRecognised file) :
    file ∈ names ↔ disk.HasFile (workspace.tokensDirectory.child file) := by
  rw [Disk.mem_fileNames named lists (json_ne_dots recognised.json), and_iff_right rfl]

theorem tokenFiles_listsTokens (named : disk.top.Named) {files : TokenFiles}
    (lists : workspace.tokenFiles disk = .ok files) : workspace.ListsTokens disk files := by
  obtain ⟨names, listed, h⟩ := bind_eq_ok lists
  cases h
  have distinct : names.Nodup := (Disk.increasing_fileNames listed).imp Std.ne_of_lt
  have mem : ∀ {file : String}, TokenFiles.IsRecognised file →
      (file ∈ names ↔ disk.HasFile (workspace.tokensDirectory.child file)) :=
    mem_tokenNames named listed
  have once := TokenFiles.nodup_listed_ofNames distinct
  refine ⟨fun file => ?_, fun file theme => ?_, fun file target => ?_, once, ?_⟩
  · simp only [TokenFiles.ofNames_eq, List.mem_filter, beq_iff_eq]
    rw [and_comm]
    exact and_congr_right fun is => mem (.inl is)
  · rw [TokenFiles.ofNames_eq, TokenFiles.mem_layer Theme.lawful TokenFiles.semanticFile_injective]
    exact and_congr_right fun is => mem (.inr (.inl ⟨theme, is⟩))
  · rw [TokenFiles.ofNames_eq,
      TokenFiles.mem_layer Platform.lawful TokenFiles.platformFile_injective]
    exact and_congr_right fun is => mem (.inr (.inr ⟨target, is⟩))
  · have shown : {file | TokenFiles.IsRecognised file ∧
          disk.HasFile (workspace.tokensDirectory.child file)} =
        ((TokenFiles.ofNames names).listed.toFinset : Set String) := by
      rw [List.coe_toFinset]
      ext file
      rw [Set.mem_ofPred_eq, Set.mem_ofPred_eq, TokenFiles.mem_listed_ofNames]
      exact and_congr_right fun recognised => (mem recognised).symm
    rw [shown, Set.ncard_coe_finset, List.toFinset_card_of_nodup once, TokenFiles.length_listed]

theorem ListsTokens.mem_listed {files : TokenFiles} (h : workspace.ListsTokens disk files)
    {file : String} (mem : file ∈ files.listed) :
    TokenFiles.IsRecognised file ∧ disk.HasFile (workspace.tokensDirectory.child file) := by
  rw [TokenFiles.listed, List.mem_append, List.mem_append, List.mem_map, List.mem_map] at mem
  rcases mem with mem | ⟨⟨_, theme⟩, mem, rfl⟩ | ⟨⟨_, target⟩, mem, rfl⟩
  · exact ((h.core file).mp mem).imp_left .inl
  · exact ((h.semantic _ theme).mp mem).imp_left fun is => .inr (.inl ⟨theme, is⟩)
  · exact ((h.platform _ target).mp mem).imp_left fun is => .inr (.inr ⟨target, is⟩)

theorem tokenFiles_returns : (∃ files, workspace.tokenFiles disk = .ok files) ↔
    disk.Listable workspace.tokensDirectory fun _ => true :=
  exists_bind_pure.trans Disk.fileNames_returns

theorem tokenFiles_missing (missing : disk.isDirectory workspace.tokensDirectory = .ok false) :
    workspace.tokenFiles disk = .ok ⟨[], [], []⟩ := by
  rw [tokenFiles, Disk.fileNames_missing missing]
  rfl

/-! ## All views -/

/-- The views agree with each other and with what is on the disk: the names of contracts and the
tree show the same contract files, and the tree shows every token file that is listed by layer. Each
view returns if its directories are looked for, and what it asks for in them stands, under paths
that are not too long; where a directory is missing or a file, it shows nothing. -/
theorem views_agree (workspace : Workspace) (disk : Disk) (named : disk.top.Named) :
    (∀ contracts, workspace.contractNames disk = .ok contracts →
      workspace.ListsContracts disk contracts) ∧
    (∀ tree, workspace.tree disk = .ok tree →
      disk.ListsJson workspace.tokensDirectory tokensFolder tree.tokens ∧
      disk.ListsJson workspace.contractsDirectory contractsFolder tree.contracts ∧
      ∀ name, s!"{contractsFolder}/{contractFile name}" ∈ tree.contracts ↔
        disk.HasFile (workspace.contractsDirectory.child (contractFile name))) ∧
    (∀ files, workspace.tokenFiles disk = .ok files →
      workspace.ListsTokens disk files ∧
      ∀ tree, workspace.tree disk = .ok tree →
        ∀ file ∈ files.listed, s!"{tokensFolder}/{file}" ∈ tree.tokens) ∧
    (disk.isDirectory workspace.contractsDirectory = .ok false →
      workspace.contractNames disk = .ok [] ∧
      ∀ tree, workspace.tree disk = .ok tree → tree.contracts = []) ∧
    (disk.isDirectory workspace.tokensDirectory = .ok false →
      workspace.tokenFiles disk = .ok ⟨[], [], []⟩ ∧
      ∀ tree, workspace.tree disk = .ok tree → tree.tokens = []) ∧
    ((∃ contracts, workspace.contractNames disk = .ok contracts) ↔
      disk.Listable workspace.contractsDirectory (endsIn contractSuffix)) ∧
    ((∃ files, workspace.tokenFiles disk = .ok files) ↔
      disk.Listable workspace.tokensDirectory fun _ => true) ∧
    ((∃ tree, workspace.tree disk = .ok tree) ↔
      (∃ there, disk.isFile workspace.system.path = .ok there) ∧
        disk.Listable workspace.tokensDirectory (endsIn ".json") ∧
        disk.Listable workspace.contractsDirectory (endsIn ".json")) := by
  refine ⟨fun contracts => contractNames_listsContracts named, fun tree shows => ?_,
    fun files lists => ?_, fun missing => ⟨contractNames_missing missing, fun tree shows => ?_⟩,
    fun missing => ⟨tokenFiles_missing missing, fun tree shows => ?_⟩,
    contractNames_returns_iff.trans Disk.fileNames_returns, tokenFiles_returns, tree_returns⟩
  · obtain ⟨ofTokens, ofContracts⟩ := tree_eq_ok shows
    have contracts := jsonFiles_listsJson named ofContracts
    exact ⟨jsonFiles_listsJson named ofTokens, contracts,
      fun name => contracts.mem (contractFile_json name)⟩
  · have tokens := tokenFiles_listsTokens named lists
    refine ⟨tokens, fun tree shows file mem => ?_⟩
    obtain ⟨recognised, there⟩ := tokens.mem_listed mem
    exact ((jsonFiles_listsJson named (tree_eq_ok shows).1).mem recognised.json).mpr there
  · exact Except.ok.inj ((tree_eq_ok shows).2.symm.trans (jsonFiles_missing missing _))
  · exact Except.ok.inj ((tree_eq_ok shows).1.symm.trans (jsonFiles_missing missing _))

/-- A workspace with two contracts, whose files are the other way round by code point, and with token
files of two layers; two directories have names of such files. -/
def shelfDisk : Disk := ⟨[("library", .directory [
  ("contracts", .directory [("Card-wide.contract.json", .file []),
    ("Card.contract.json", .file []), ("Tile.contract.json", .directory []),
    ("extra.json", .file [])]),
  ("tokens", .directory [("core.json", .file []), ("semantic.dark.json", .file []),
    ("platform.web.json", .directory [])])])]⟩

theorem shelfDisk_named : shelfDisk.top.Named := by
  have file : Entry.Named (.file []) := .file []
  have empty : Entry.Named (.directory []) := .directory (by simp) (by simp)
  refine .directory (by decide) (List.forall_mem_singleton.mpr (.directory (by decide) ?_))
  exact List.forall_mem_cons.mpr ⟨.directory (by decide) (by simp [file, empty]),
    List.forall_mem_singleton.mpr (.directory (by decide) (by simp [file, empty]))⟩

theorem views_agree_shelf :
    let workspace : Workspace := ⟨.ofText "library"⟩
    ∃ contracts tree files, workspace.contractNames shelfDisk = .ok contracts ∧
      workspace.tree shelfDisk = .ok tree ∧ workspace.tokenFiles shelfDisk = .ok files ∧
      "Card" ∈ contracts ∧ "Card-wide" ∈ contracts ∧ "Tile" ∉ contracts ∧
      "contracts/Card.contract.json" ∈ tree.contracts ∧
      "contracts/Tile.contract.json" ∉ tree.contracts ∧ "tokens/core.json" ∈ tree.tokens ∧
      ("semantic.dark.json", Theme.dark) ∈ files.semantic ∧
      ("platform.web.json", Platform.web) ∉ files.platform := by
  intro workspace
  have contractsThere : shelfDisk.isDirectory workspace.contractsDirectory = .ok true := by decide
  have tokensThere : shelfDisk.isDirectory workspace.tokensDirectory = .ok true := by decide
  have inContracts (asked : String → Bool) :
      shelfDisk.Listable workspace.contractsDirectory asked :=
    Disk.listable_of_room shelfDisk_named (by decide) (by decide) contractsThere asked
  have inTokens (asked : String → Bool) : shelfDisk.Listable workspace.tokensDirectory asked :=
    Disk.listable_of_room shelfDisk_named (by decide) (by decide) tokensThere asked
  obtain ⟨ofNames, ofTree, ofTokens, -, -, namesReturn, tokensReturn, treeReturns⟩ :=
    views_agree workspace shelfDisk shelfDisk_named
  obtain ⟨contracts, lists⟩ := namesReturn.mpr (inContracts _)
  obtain ⟨files, layers⟩ := tokensReturn.mpr (inTokens _)
  obtain ⟨tree, shows⟩ :=
    treeReturns.mpr ⟨⟨false, by decide +kernel⟩, inTokens _, inContracts _⟩
  have names := (ofNames contracts lists).files
  obtain ⟨-, -, shown⟩ := ofTree tree shows
  obtain ⟨tokens, together⟩ := ofTokens files layers
  have card : shelfDisk.HasFile (workspace.contractsDirectory.child (contractFile "Card")) := by
    decide +kernel
  have noTile : ¬ shelfDisk.HasFile (workspace.contractsDirectory.child (contractFile "Tile")) := by
    decide +kernel
  have core : coreFile ∈ files.core := (tokens.core _).mpr ⟨rfl, by decide +kernel⟩
  exact ⟨contracts, tree, files, lists, shows, layers, (names "Card").mpr card,
    (names "Card-wide").mpr (by decide +kernel), fun mem => noTile ((names "Tile").mp mem),
    (shown "Card").mpr card, fun mem => noTile ((shown "Tile").mp mem),
    together tree shows _ (List.mem_append_left _ core),
    (tokens.semantic _ _).mpr (by decide +kernel),
    fun mem => absurd ((tokens.platform _ _).mp mem) (by decide +kernel)⟩

/-- A contract that is there is not listed where the root is spelled at such length that the name of
the directory does not fit behind it. -/
theorem views_agree_unlistable :
    let workspace : Workspace := ⟨.detour "library" 371⟩
    shelfDisk.isDirectory workspace.root = .ok true ∧
    shelfDisk.node? (workspace.root.names ++ ["contracts", "Card.contract.json"]) =
      some (.file []) ∧
    ∀ contracts, workspace.contractNames shelfDisk ≠ .ok contracts := by
  intro workspace
  have bytes : Path.byteLength "library" = 7 := by decide
  have length : Path.byteLength workspace.root.text = 4088 := by
    rw [Path.byteLength_detour, bytes]
  have root : shelfDisk.HasDirectory workspace.root ["library"] :=
    Disk.hasDirectory_detour rfl (by decide) (by decide) (by rw [bytes]; decide)
  obtain ⟨error, fails⟩ := @contractNames_of_overlong workspace shelfDisk (List.cons_ne_nil _ _)
    root.reaches.usable.noNul (by rw [length]; decide)
  refine ⟨Disk.isDirectory_eq_ok.mpr ⟨_, root⟩, ?_, fun contracts lists => ?_⟩
  · rw [← root.reaches.names_eq]
    decide +kernel
  · cases fails.symm.trans lists

end Workspace
end DesignSystem
