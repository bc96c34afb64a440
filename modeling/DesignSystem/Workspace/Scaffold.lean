import DesignSystem.Workspace.Starter

/-! # Scaffolding a workspace

* `Workspace.scaffold`: writes the starter documents, over existing ones only if forced to.
-/

namespace DesignSystem.Workspace
set_option autoImplicit false

/-- A write into one slot of a workspace. -/
abbrev Write := Disk → Outcome Path × Disk

/-- The writes of the starter documents, in order. -/
def starterWrites (workspace : Workspace) : List Write :=
  [fun disk => workspace.system.write disk Starter.system,
    fun disk => workspace.core.write disk Starter.core] ++
  [Theme.light, .dark].map (fun theme disk =>
    (workspace.semantic theme).write disk (Starter.semantic theme)) ++
  [Platform.web, .rn].map (fun platform disk =>
    (workspace.platform platform).write disk (Starter.platform platform)) ++
  [fun disk => (workspace.contract "Button").write disk Starter.button]

/-- Carries out all writes unless one aborts; the first failure is the outcome. -/
def writeAll : List Write → Disk → Outcome Unit × Disk
  | [], disk => (.ok (), disk)
  | write :: writes, disk =>
    match write disk with
    | (.ok _, written) => writeAll writes written
    | (.aborted abort, written) => (.aborted abort, written)
    | (.failed failure, written) =>
      match writeAll writes written with
      | (.aborted abort, last) => (.aborted abort, last)
      | (_, last) => (.failed failure, last)

/-- A root that cannot become a workspace. -/
def structureFailure (message : String) (path : Path) : Failure :=
  ⟨.workspaceInvalidStructure, message, some path.text, []⟩

/-- Why a root is refused: it holds a workspace already, or it is no directory. -/
def refusal? (workspace : Workspace) (disk : Disk) (force : Bool) :
    Except DiskError (Option Failure) := do
  let taken ← disk.isThere workspace.system.path
  if taken && !force then
    return some (structureFailure "Workspace already exists. Use force to overwrite."
      workspace.system.path)
  match ← disk.status workspace.root with
  | some (.file _) =>
    return some (structureFailure s!"Not a directory: {workspace.root.text}" workspace.root)
  | _ => return none

def scaffold (workspace : Workspace) (disk : Disk) (force : Bool) : Outcome Workspace × Disk :=
  match workspace.refusal? disk force with
  | .error error => (.aborted (.disk error), disk)
  | .ok (some failure) => (.failed failure, disk)
  | .ok none =>
    match writeAll workspace.starterWrites disk with
    | (outcome, written) => (outcome.bind fun _ => .ok workspace, written)

end DesignSystem.Workspace
