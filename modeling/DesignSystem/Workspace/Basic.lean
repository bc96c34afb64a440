import DesignSystem.Tokens.Export
import DesignSystem.Workspace.Slot

/-! # Workspaces

A workspace is a directory with a manifest, token layers below `tokens` and contracts below
`contracts`. Every operation reads the disk anew.

* `Workspace.system`, `Workspace.core`, `Workspace.semantic`, `Workspace.platform`,
  `Workspace.contract`: the slots of a workspace.
* `Workspace.compile`: the compiled tokens of a platform and a theme.
-/

namespace DesignSystem
set_option autoImplicit false

structure Workspace where
  root : Path
  deriving DecidableEq

/-! ## File names -/

def systemFile : String := "system.json"

def tokensFolder : String := "tokens"

def contractsFolder : String := "contracts"

def coreFile : String := "core.json"

def contractSuffix : String := ".contract.json"

def semanticFile (theme : Theme) : String := s!"semantic.{Vocabulary.word theme}.json"

def platformFile (platform : Platform) : String := s!"platform.{Vocabulary.word platform}.json"

def contractFile (name : String) : String := name ++ contractSuffix

/-- A contract name as part of a file name: slashes of both kinds become underscores. -/
def safeName (name : String) : String :=
  .ofList (name.toList.map fun c => if c == '/' || c == '\\' then '_' else c)

namespace Workspace

/-! ## Places -/

def ofText (root : String) : Workspace := ⟨.ofText root⟩

/-- The workspace as it is named in messages. -/
def name (workspace : Workspace) : String :=
  s!"SystemWorkspace({quoted workspace.root.text})"

def tokensDirectory (workspace : Workspace) : Path := workspace.root.child tokensFolder

def contractsDirectory (workspace : Workspace) : Path := workspace.root.child contractsFolder

def system (workspace : Workspace) : Slot SystemManifest :=
  ⟨workspace.root.child systemFile, systemFile, .system⟩

def core (workspace : Workspace) : Slot CoreTokens :=
  ⟨workspace.tokensDirectory.child coreFile, coreFile, .core⟩

def semantic (workspace : Workspace) (theme : Theme) : Slot SemanticTokens :=
  ⟨workspace.tokensDirectory.child (semanticFile theme), semanticFile theme, .semantic⟩

def platform (workspace : Workspace) (platform : Platform) : Slot PlatformRules :=
  ⟨workspace.tokensDirectory.child (platformFile platform), platformFile platform, .platform⟩

def contract (workspace : Workspace) (name : String) : Slot ComponentContract :=
  ⟨workspace.contractsDirectory.child (contractFile (safeName name)), s!"contract {name}",
    .contract⟩

def isThere (workspace : Workspace) (disk : Disk) : Bool :=
  match disk.isDirectory workspace.root with
  | .ok found => found
  | .error _ => false

/-! ## Compiling -/

/-- The compiled tokens of a platform and a theme; the first failure to read is passed on. -/
def compile (workspace : Workspace) (disk : Disk) (platform : Platform) (theme : Theme) :
    Outcome CompiledTokens := do
  let core ← workspace.core.read disk
  let semantic ← (workspace.semantic theme).read disk
  let rules ← (workspace.platform platform).read disk
  DesignSystem.compile core semantic rules

end Workspace
end DesignSystem
