import DesignSystem.Workspace.Basic

/-! # Views of a workspace directory

* `Workspace.contractNames`: the names of the contracts.
* `Workspace.tokenFiles`: the token files by layer.
* `Workspace.tree`: the JSON files as an editor shows them.
-/

namespace DesignSystem
set_option autoImplicit false

/-- The token files of a workspace by layer, with the theme or platform of each. -/
structure TokenFiles where
  core : List String
  semantic : List (String × Theme)
  platform : List (String × Platform)

namespace TokenFiles

def count (files : TokenFiles) : Nat :=
  files.core.length + files.semantic.length + files.platform.length

def themes (files : TokenFiles) : List Theme := files.semantic.map Prod.snd

def platforms (files : TokenFiles) : List Platform := files.platform.map Prod.snd

/-- A file and the member of a vocabulary that it is for. -/
def entryDocument {α : Type} [Vocabulary α] (key : String) (entry : String × α) : Json :=
  .object [("file", .string entry.1), (key, Encoded.word entry.2)]

def document (files : TokenFiles) : Json :=
  .object [("core", .array (files.core.map Json.ofString)),
    ("semantic", .array (files.semantic.map (entryDocument "theme"))),
    ("platform", .array (files.platform.map (entryDocument "platform")))]

/-- The token files among file names, in the order of the names. -/
def ofNames (names : List String) : TokenFiles where
  core := names.filter (· == coreFile)
  semantic := names.filterMap fun name =>
    (Vocabulary.members.find? (semanticFile · == name)).map (name, ·)
  platform := names.filterMap fun name =>
    (Vocabulary.members.find? (platformFile · == name)).map (name, ·)

end TokenFiles

structure WorkspaceTree where
  system : Option String
  tokens : List String
  contracts : List String

/-- The name without a suffix that it ends in. -/
def withoutSuffix? (suffix name : String) : Option String :=
  let cs := name.toList
  let suffix := suffix.toList
  if suffix.isSuffixOf cs then some (.ofList (cs.take (cs.length - suffix.length))) else none

def endsIn (suffix name : String) : Bool := (withoutSuffix? suffix name).isSome

namespace Workspace

/-- The names of the contracts by code point. -/
def contractNames (workspace : Workspace) (disk : Disk) : Except DiskError (List String) := do
  let names ← disk.fileNames workspace.contractsDirectory (endsIn contractSuffix)
  return (names.filterMap (withoutSuffix? contractSuffix)).mergeSort

/-- The token files; a missing directory has none. -/
def tokenFiles (workspace : Workspace) (disk : Disk) : Except DiskError TokenFiles := do
  let names ← disk.fileNames workspace.tokensDirectory fun _ => true
  return .ofNames names

/-- The JSON files in a directory by code point, behind the name of the directory. -/
def jsonFiles (disk : Disk) (directory : Path) (folder : String) :
    Except DiskError (List String) := do
  let names ← disk.fileNames directory (endsIn ".json")
  return names.map fun name => s!"{folder}/{name}"

def tree (workspace : Workspace) (disk : Disk) : Except DiskError WorkspaceTree := do
  let hasSystem ← disk.isFile workspace.system.path
  let tokens ← jsonFiles disk workspace.tokensDirectory tokensFolder
  let contracts ← jsonFiles disk workspace.contractsDirectory contractsFolder
  return ⟨if hasSystem then some systemFile else none, tokens, contracts⟩

end Workspace
end DesignSystem
