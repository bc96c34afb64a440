import DesignSystem.CommandLine.Command
import DesignSystem.Workspace.Scaffold
import DesignSystem.Workspace.Validation

/-! # Running commands

Standard output takes UTF-8 and stops at a text without bytes; standard error takes every text, with
escapes for surrogates on their own. A run that stops is the condition on which it stops: the lines
that it had printed before are not part of it.

* `Printed`: what a run prints, and its exit code.
* `CommandLine.run`: the run of a command line in a directory.
-/

namespace DesignSystem.CommandLine
set_option autoImplicit false

structure Printed where
  exitCode : Nat
  stdout : String
  stderr : String
  deriving DecidableEq, Repr

def lines : List String → String
  | [] => ""
  | line :: rest => line ++ "\n" ++ lines rest

/-- A text on standard output, which takes texts that have bytes. -/
def output (text : Text) : Except Abort String :=
  match Utf8.unencodable? text.points with
  | some fault => .error (.unencodable fault)
  | none => .ok text.shown

def outputLines : List Text → Except Abort String
  | [] => .ok ""
  | line :: rest => do
    let first ← output line
    let others ← outputLines rest
    return first ++ "\n" ++ others

/-- Lines on standard error, which takes all texts. -/
def errorLines (texts : List Text) : String := lines (texts.map Text.escaped)

def failureLines (failure : Failure) : List Text :=
  (s!"Error [{failure.code.word}]: " ++ failure.message) ::
    match failure.path with
    | some path => if path = "" then [] else [s!"  at {path}"]
    | none => []

/-- The workspace that a word names, spelled below the directory of the run. -/
def workspaceAt (directory : String) : Option String → Except Abort Workspace
  | none => .error .noPath
  | some word =>
    let path := Path.ofText word
    if path.hasNul then .error .nulInPath else .ok ⟨path.resolve directory⟩

/-! ## Scaffolding -/

def initialized (tree : WorkspaceTree) : List String :=
  ["", "Workspace initialized successfully!", "", "Structure created:"] ++
  (tree.tokens ++ tree.contracts ++ [tree.system.getD "None"]).map ("  " ++ ·) ++
  ["",
    "Next steps:",
    "  1. Edit system.json with your design system name",
    "  2. Add tokens in tokens/",
    s!"  3. Define contracts in {contractsFolder}/",
    "  4. Run: designagent validate"]

def runInit (workspace : Workspace) (disk : Disk) (force : Bool) : Except Abort Printed × Disk :=
  let heading := s!"Initializing DesignAgent workspace at: {workspace.root.text}"
  match workspace.scaffold disk force with
  | (.aborted abort, written) => (.error abort, written)
  | (.failed failure, written) =>
    (.ok ⟨1, lines [heading], errorLines (failureLines failure)⟩, written)
  | (.ok _, written) =>
    match workspace.tree written with
    | .error error => (.error (.disk error), written)
    | .ok tree => (.ok ⟨0, lines (heading :: initialized tree), ""⟩, written)

/-! ## Validating -/

def issueLines (issue : Issue) : List Text :=
  [s!"  [{issue.code}] {issue.place.text}", "    " ++ issue.message, ""]

def rejected (report : Report) : List Text :=
  "Validation failed!" :: "" :: s!"Found {report.issues.length} error(s):" :: "" ::
    report.issues.flatMap issueLines

def wordList {α : Type} [Vocabulary α] (members : List α) : String :=
  String.intercalate ", " (members.map Vocabulary.word)

def accepted (manifest : SystemManifest) (contracts : List String) (files : TokenFiles) :
    List Text :=
  "Workspace is valid!" :: "" :: ("System: " ++ manifest.name ++ " v" ++ manifest.version) ::
  s!"Contracts: {contracts.length}" ::
  ((contracts.map fun name => (s!"  - {name} ({contractFile name})" : Text)) ++
  ([s!"Token files: {files.count}", s!"  Core: {files.core.length}",
    s!"  Semantic: {files.semantic.length} ({wordList files.themes})",
    s!"  Platform: {files.platform.length} ({wordList files.platforms})"] : List Text))

/-- The summary of a valid workspace. -/
def summary (workspace : Workspace) (disk : Disk) : Outcome (List Text) := do
  let manifest ← workspace.system.read disk
  let contracts ← Outcome.ofExcept ((workspace.contractNames disk).mapError Abort.disk)
  let files ← Outcome.ofExcept ((workspace.tokenFiles disk).mapError Abort.disk)
  return accepted manifest contracts files

def runValidate (workspace : Workspace) (disk : Disk) : Except Abort Printed :=
  let heading := [s!"Validating workspace: {workspace.root.text}", ""]
  if !workspace.isThere disk then
    .ok ⟨1, lines heading, lines ["Error: Workspace not found.",
      "Run \"designagent init\" to create a workspace."]⟩
  else do
    let report ← workspace.validate disk
    if !report.valid then return ⟨1, lines heading, errorLines (rejected report)⟩
    match summary workspace disk with
    | .ok body => return ⟨0, lines heading ++ (← outputLines body), ""⟩
    | .failed failure => return ⟨1, lines heading, errorLines (failureLines failure)⟩
    | .aborted abort => .error abort

/-! ## Compiling -/

def runTokens (workspace : Workspace) (disk : Disk) (platform : Option Platform)
    (theme : Option Theme) (format : Option ExportFormat) : Except Abort Printed := do
  let platform ← requireMember platform
  let theme ← requireMember theme
  match workspace.compile disk platform theme with
  | .aborted abort => .error abort
  | .failed failure => return ⟨1, "", errorLines (failureLines failure)⟩
  | .ok tokens =>
    let format ← requireMember format
    match exportTokens format tokens.scalars with
    | .ok text => return ⟨0, ← output text, ""⟩
    | .error fault => .error (.number fault)

/-! ## Command lines -/

def runCommand (directory : String) (disk : Disk) : Command → Except Abort Printed × Disk
  | .init path force =>
    match workspaceAt directory (some path) with
    | .error abort => (.error abort, disk)
    | .ok workspace => runInit workspace disk force
  | .validate root =>
    ((workspaceAt directory root).bind fun workspace => runValidate workspace disk, disk)
  | .tokens root platform theme format =>
    ((workspaceAt directory root).bind fun workspace =>
      runTokens workspace disk platform theme format, disk)

def run (directory : String) (disk : Disk) (words : List String) : Except Abort Printed × Disk :=
  match Command.ofWords words with
  | .error notice => (.ok ⟨notice.exitCode, notice.stdout, notice.stderr⟩, disk)
  | .ok command => runCommand directory disk command

end DesignSystem.CommandLine
