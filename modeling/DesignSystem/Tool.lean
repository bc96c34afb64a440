import DesignSystem.Json.Display
import DesignSystem.Workspace.Validation

/-! # Tools

Tools look into a workspace and answer with the text of a JSON object, whose status is success or
error.

* `Tool`: the tools.
* `Tool.call`: the answer of a tool to its arguments, unless they break it off.
-/

namespace DesignSystem
set_option autoImplicit false

inductive Tool where
  | listComponents
  | getComponent
  | validateUsage
  | getTokens
  | listTokenFiles
  | validateWorkspace
  deriving DecidableEq, Repr

instance : Vocabulary Tool where
  name := "Tool"
  members := [.listComponents, .getComponent, .validateUsage, .getTokens, .listTokenFiles,
    .validateWorkspace]
  word
    | .listComponents => "design_list_components"
    | .getComponent => "design_get_component"
    | .validateUsage => "design_validate_usage"
    | .getTokens => "design_get_tokens"
    | .listTokenFiles => "design_list_token_files"
    | .validateWorkspace => "design_validate_workspace"

namespace Tool

/-! ## Payloads -/

/-- The answer of a tool that stopped. -/
def unexpected (message : String) : String :=
  (Json.object [("status", .string "error"), ("message", .string message)]).text .asciiLine

/-- A payload as text; an integer in it with too many digits stops the tool. -/
def payload (fields : Fields) : Except Abort String :=
  if ((Json.object fields).unwritable? false).isSome then .error (.number .numeralTooLong)
  else .ok ((Json.object fields).text .asciiLine)

def success (fields : Fields) : Except Abort String :=
  payload (("status", .string "success") :: fields)

def pathDocument (path : Option String) : Json := (path.map Json.ofString).getD .null

def failure (failure : Failure) : Except Abort String :=
  payload ([("status", .string "error"), ("code", .string failure.code.word),
    ("message", .string failure.message), ("path", pathDocument failure.path)] ++
    if failure.details.isEmpty then [] else [("details", .object failure.details)])

/-- The answer to an argument outside a vocabulary, which is written out in it. -/
def badArgument (α : Type) [Vocabulary α] (argument : String) (found : Json) :
    Except Abort String :=
  if (found.unwritable? false).isSome then .error (.number .numeralTooLong)
  else payload [("status", .string "error"), ("code", .string "INVALID_ARGUMENT"),
    ("message", .string (s!"Invalid {argument}: " ++ found.display ++ ". Expected one of: " ++
      String.intercalate ", " (Vocabulary.words α))),
    ("path", .null)]

def reply : Outcome Fields → Except Abort String
  | .ok fields => success fields
  | .failed reason => failure reason
  | .aborted abort => .error abort

/-- An outcome without failures. -/
def settled {α : Type} : Except DiskError α → Outcome α
  | .ok value => .ok value
  | .error error => .aborted (.disk error)

/-! ## Arguments -/

/-- An argument, null if it is not given. -/
def argument (arguments : Fields) (name : String) : Json := (arguments.get? name).getD .null

/-- Why there is no file of a contract: the name of the file has no bytes. Here no surrogate on its
own has any; file systems have a byte for some of them. -/
def contractUnencodable? (workspace : Workspace) (name : Text) : Option Utf8.Unencodable :=
  Utf8.unencodable? (s!"{workspace.contractsDirectory.text}/" ++ name : Text).points

/-- A contract name. -/
def nameArgument (workspace : Workspace) (arguments : Fields) (name : String) : Outcome String :=
  match argument arguments name with
  | .string text =>
    match contractUnencodable? workspace text with
    | some fault => .aborted (.unencodable fault)
    | none => .ok text.shown
  | found => .aborted (.notText found.typeName)

/-- Goes on with the member of a vocabulary that an argument names, or answers that it names
none. -/
def withMember (α : Type) [Vocabulary α] (name : String) (found : Json)
    (next : α → Except Abort String) : Except Abort String :=
  match found with
  | .string text =>
    match text.string?.bind Vocabulary.member? with
    | some value => next value
    | none => badArgument α name found
  | _ => badArgument α name found

/-! ## Answers -/

/-- The fields that say whether a report is valid, and its issues. -/
def reportFields (report : Report) : Fields :=
  [("valid", .bool report.valid), ("errors", report.issueDocuments)]

def components (workspace : Workspace) (disk : Disk) : Outcome Fields := do
  let names ← settled (workspace.contractNames disk)
  return [("components", .array (names.map Json.ofString)), ("count", .int names.length)]

def component (workspace : Workspace) (disk : Disk) (arguments : Fields) : Outcome Fields := do
  let name ← nameArgument workspace arguments "name"
  let contract ← (workspace.contract name).read disk
  return [("contract", contract.document)]

def usage (workspace : Workspace) (disk : Disk) (arguments : Fields) : Outcome Fields := do
  let name ← nameArgument workspace arguments "component"
  let contract ← (workspace.contract name).read disk
  match Usage.check contract (argument arguments "props") with
  | .error fault => .aborted (.number fault)
  | .ok report => return ("component", .string name) :: reportFields report

/-- The compiled tokens and, in other formats than JSON, their text. -/
def tokens (workspace : Workspace) (disk : Disk) (platform : Platform) (theme : Theme)
    (format : ExportFormat) : Outcome Fields := do
  let tokens ← workspace.compile disk platform theme
  let fields := [("platform", Encoded.word platform), ("theme", Encoded.word theme),
    ("format", Encoded.word format), ("tokens", tokens.document)]
  if format = .json then return fields
  else match exportTokens format tokens.scalars with
    | .ok text => return fields ++ [("output", .string text)]
    | .error fault => .aborted (.number fault)

/-- The answer with tokens; arguments are judged in order, the first bad one being answered. -/
def tokensAnswer (workspace : Workspace) (disk : Disk) (arguments : Fields) :
    Except Abort String :=
  withMember Platform "platform" (argument arguments "platform") fun platform =>
  withMember Theme "theme" (argument arguments "theme") fun theme =>
  withMember ExportFormat "format" ((arguments.get? "format").getD (.string "json")) fun format =>
  reply (tokens workspace disk platform theme format)

def tokenFiles (workspace : Workspace) (disk : Disk) : Outcome Fields := do
  let files ← settled (workspace.tokenFiles disk)
  return [("files", files.document), ("count", .int files.count)]

/-- The answer of a tool that runs to its end, or the condition on which it stops. -/
def body (workspace : Workspace) (disk : Disk) (arguments : Fields) :
    Tool → Except Abort String
  | listComponents => reply (components workspace disk)
  | getComponent => reply (component workspace disk arguments)
  | validateUsage => reply (usage workspace disk arguments)
  | getTokens => tokensAnswer workspace disk arguments
  | listTokenFiles => reply (tokenFiles workspace disk)
  | validateWorkspace => reply ((Outcome.ofExcept (workspace.validate disk)).bind
      fun report => .ok (reportFields report))

/-- The arguments that a tool writes into its log when it stops. -/
def logged (arguments : Fields) : Tool → List Json
  | getComponent => [argument arguments "name"]
  | validateUsage => [argument arguments "component"]
  | getTokens => [argument arguments "platform", argument arguments "theme"]
  | listComponents | listTokenFiles | validateWorkspace => []

/-- The call of a tool. One that stops is logged and answers with the reason; an integer with too
many digits in an argument that is logged breaks the call off. -/
def call (workspace : Workspace) (disk : Disk) (arguments : Fields) (tool : Tool) :
    Except NumberFault String :=
  match tool.body workspace disk arguments with
  | .ok text => .ok text
  | .error abort =>
    if (tool.logged arguments).any fun argument => (argument.unwritable? false).isSome then
      .error .numeralTooLong
    else .ok (unexpected abort.message)

/-- The answer to a call, or the message of what breaks it off. -/
def answer (workspace : Workspace) (disk : Disk) (arguments : Fields) (tool : Tool) : String :=
  match tool.call workspace disk arguments with
  | .ok text => text
  | .error fault => fault.message

end Tool
end DesignSystem
