import DesignSystem.Proofs.Json.Parts
import DesignSystem.Proofs.Outcome
import DesignSystem.Workspace.Scaffold
import DesignSystem.Workspace.Validation

/-! # Operations on a workspace

* `Address`, `Workspace.slot`: which document is meant, and where it is.
* `Argument`: what is written, a raw document or a model.
* `Workspace.read`, `Workspace.write`: the document operations.
* `Operation`, `Workspace.perform`, `Workspace.performAll`: all operations, and sequences of them.
-/

namespace DesignSystem
set_option autoImplicit false

/-! ## Addresses -/

/-- A document of a workspace. Themes and platforms are given by words, which may be unknown. -/
inductive Address where
  | system
  | core
  | semantic (theme : String)
  | platform (platform : String)
  | contract (name : String)

namespace Address

/-- The models of the documents at an address. -/
def Model : Address → Type
  | system => SystemManifest
  | core => CoreTokens
  | semantic _ => SemanticTokens
  | platform _ => PlatformRules
  | contract _ => ComponentContract

def schema : (address : Address) → Schema address.Model
  | system => .system
  | core => .core
  | semantic _ => .semantic
  | platform _ => .platform
  | contract _ => .contract

end Address

/-- What is written at an address. Like every object, the wire form of a model has each name
once. -/
inductive Argument (address : Address) where
  | raw (document : Json) (distinct : document.Distinct)
  | model (value : address.Model) (distinct : (address.schema.encode value).Distinct)

namespace Argument
variable {address : Address}

/-- The document that is written. -/
def document : Argument address → Json
  | raw document _ => document
  | model value _ => address.schema.encode value

theorem distinct : (argument : Argument address) → argument.document.Distinct
  | raw _ distinct => distinct
  | model _ distinct => distinct

end Argument

namespace Workspace

/-- The slot at an address. -/
def slot (workspace : Workspace) : (address : Address) → Except Abort (Slot address.Model)
  | .system => .ok workspace.system
  | .core => .ok workspace.core
  | .semantic theme => (requireWord theme).map workspace.semantic
  | .platform platform => (requireWord platform).map workspace.platform
  | .contract name => .ok (workspace.contract name)

/-- The model of the document at an address. -/
def read (workspace : Workspace) (disk : Disk) (address : Address) : Outcome address.Model :=
  match workspace.slot address with
  | .error abort => .aborted abort
  | .ok slot => slot.read disk

/-- The disk after a document is written at an address. -/
def write (workspace : Workspace) (disk : Disk) (address : Address) (argument : Argument address) :
    Outcome Path × Disk :=
  match workspace.slot address, argument with
  | .error abort, _ => (.aborted abort, disk)
  | .ok slot, .raw document _ => slot.write disk document
  | .ok slot, .model value _ => slot.writeModel disk value

/-- The compiled tokens for the words of a platform and a theme. -/
def compileFor (workspace : Workspace) (disk : Disk) (platform theme : String) :
    Outcome CompiledTokens := do
  let platform ← Outcome.ofExcept (requireWord platform)
  let theme ← Outcome.ofExcept (requireWord theme)
  workspace.compile disk platform theme

theorem slot_schema {workspace : Workspace} {address : Address} {slot : Slot address.Model}
    (h : workspace.slot address = .ok slot) : slot.schema = address.schema := by
  cases address with
  | system => cases h; rfl
  | core => cases h; rfl
  | semantic word =>
    obtain ⟨theme, -, rfl⟩ := map_eq_ok h
    rfl
  | platform word =>
    obtain ⟨platform, -, rfl⟩ := map_eq_ok h
    rfl
  | contract name => cases h; rfl

/-- The wire form of a model is written like a raw document. -/
theorem write_eq {workspace : Workspace} {address : Address} {slot : Slot address.Model}
    (h : workspace.slot address = .ok slot) (disk : Disk) (argument : Argument address) :
    workspace.write disk address argument = slot.write disk argument.document := by
  cases argument with
  | raw document distinct => simp only [write, h, Argument.document]
  | model value distinct =>
    simp only [write, h, Slot.writeModel, slot_schema h, Argument.document]

end Workspace

/-! ## Operations -/

/-- An operation on a workspace, with its arguments. -/
inductive Operation where
  | isThere
  | read (address : Address)
  | listContracts
  | listTokenFiles
  | fileTree
  | compile (platform theme : String)
  | validate
  | write (address : Address) (argument : Argument address)
  | scaffold (force : Bool)

/-- What an operation returns. -/
inductive Answer where
  | found (there : Bool)
  | model (address : Address) (outcome : Outcome address.Model)
  | contracts (names : Except DiskError (List String))
  | tokenFiles (files : Except DiskError TokenFiles)
  | tree (tree : Except DiskError WorkspaceTree)
  | compiled (tokens : Outcome CompiledTokens)
  | report (report : Except Abort Report)
  | written (path : Outcome Path)
  | scaffolded (workspace : Outcome Workspace)

namespace Workspace

/-- What an operation returns, and the disk after it. -/
def perform (workspace : Workspace) (disk : Disk) : Operation → Answer × Disk
  | .isThere => (.found (workspace.isThere disk), disk)
  | .read address => (.model address (workspace.read disk address), disk)
  | .listContracts => (.contracts (workspace.contractNames disk), disk)
  | .listTokenFiles => (.tokenFiles (workspace.tokenFiles disk), disk)
  | .fileTree => (.tree (workspace.tree disk), disk)
  | .compile platform theme => (.compiled (workspace.compileFor disk platform theme), disk)
  | .validate => (.report (workspace.validate disk), disk)
  | .write address argument =>
    let (path, after) := workspace.write disk address argument
    (.written path, after)
  | .scaffold force =>
    let (outcome, after) := workspace.scaffold disk force
    (.scaffolded outcome, after)

/-- The disk after a sequence of operations. -/
def performAll (workspace : Workspace) (disk : Disk) (operations : List Operation) : Disk :=
  operations.foldl (fun disk operation => (workspace.perform disk operation).2) disk

end Workspace
end DesignSystem
