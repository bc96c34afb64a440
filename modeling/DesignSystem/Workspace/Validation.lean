import DesignSystem.Workspace.Views

/-! # Validating a workspace

* `Workspace.validate`: one issue for each document that cannot be read; a missing theme or platform
  file is no issue.
-/

namespace DesignSystem.Workspace
set_option autoImplicit false

/-- The value reported with a failed document: its issues, or else what details there are. -/
def detailValue (details : Fields) : Option Json :=
  match details.get? "errors" with
  | some issues => some issues
  | none => if details.isEmpty then none else some (.object details)

def failureIssue (place : String) (failure : Failure) : Issue :=
  ⟨.named place, failure.message, failure.code.word, detailValue failure.details⟩

/-- The issues of a document at a place, from how its reading ends. -/
def documentIssues {α : Type} (place : String) : Outcome α → Except Abort (List Issue)
  | .ok _ => .ok []
  | .failed failure => .ok [failureIssue place failure]
  | .aborted abort => .error abort

/-- The issues of a document that may be missing. -/
def optionalIssues {α : Type} (place : String) : Outcome α → Except Abort (List Issue)
  | .failed failure =>
    if failure.code = .tokenFileNotFound then .ok [] else .ok [failureIssue place failure]
  | outcome => documentIssues place outcome

def issuesOf {α : Type} (issues : α → Except Abort (List Issue)) :
    List α → Except Abort (List Issue)
  | [] => .ok []
  | document :: documents => do
    let first ← issues document
    let others ← issuesOf issues documents
    return first ++ others

def missingIssue (workspace : Workspace) : Issue :=
  ⟨.named ".", s!"Workspace not found: {workspace.root.text}", FailureCode.workspaceNotFound.word,
    none⟩

/-- The issues of all documents of a workspace that is there. -/
def documents (workspace : Workspace) (disk : Disk) : Except Abort (List Issue) := do
  let system ← documentIssues systemFile (workspace.system.read disk)
  let names ← (workspace.contractNames disk).mapError Abort.disk
  let contracts ← issuesOf (fun name =>
    documentIssues s!"{contractsFolder}/{contractFile name}"
      ((workspace.contract name).read disk)) names
  let core ← documentIssues s!"{tokensFolder}/{coreFile}" (workspace.core.read disk)
  let themes ← issuesOf (fun theme =>
    optionalIssues s!"{tokensFolder}/{semanticFile theme}"
      ((workspace.semantic theme).read disk)) Vocabulary.members
  let platforms ← issuesOf (fun platform =>
    optionalIssues s!"{tokensFolder}/{platformFile platform}"
      ((workspace.platform platform).read disk)) Vocabulary.members
  return system ++ contracts ++ core ++ themes ++ platforms

def validate (workspace : Workspace) (disk : Disk) : Except Abort Report :=
  if workspace.isThere disk then return ⟨← documents workspace disk⟩
  else .ok ⟨[workspace.missingIssue]⟩

end DesignSystem.Workspace
