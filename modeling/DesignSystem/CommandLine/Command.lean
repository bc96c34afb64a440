import DesignSystem.CommandLine.Grammar
import DesignSystem.Vocabulary

/-! # Commands

* `Command`: what a command line asks for.
* `Command.ofWords`: the command of a command line, or the notice to print instead.
-/

namespace DesignSystem.CommandLine
set_option autoImplicit false

/-- A command with its settings; those that are set without a value are missing. -/
inductive Command where
  | init (path : String) (force : Bool)
  | validate (workspace : Option String)
  | tokens (workspace : Option String) (platform : Option Platform) (theme : Option Theme)
    (format : Option ExportFormat)

/-! ## Grammars -/

def program : String := "designagent"

def helpOption : OptionSpec := ⟨"help", ["-h", "--help"], .help⟩

def workspaceOption : OptionSpec := ⟨"workspace", ["-w", "--workspace"], .value []⟩

def memberOption (α : Type) [Vocabulary α] (setting : String) : OptionSpec :=
  ⟨setting, ["--" ++ setting], .value (Vocabulary.words α)⟩

def mainUsage : String := "usage: designagent [-h] [--debug] \x7binit,validate,tokens\x7d ...\n"

def initUsage : String := "usage: designagent init [-h] [--force] [path]\n"

def validateUsage : String := "usage: designagent validate [-h] [-w WORKSPACE]\n"

def tokensUsage : String :=
  "usage: designagent tokens [-h] [-w WORKSPACE] [--platform \x7bweb,rn\x7d]\n" ++
  "                          [--theme \x7blight,dark\x7d] [--format \x7bjson,css,ts\x7d]\n"

def mainHelp : String := mainUsage ++
  "\n" ++
  "Design-system workspace tooling\n" ++
  "\n" ++
  "positional arguments:\n" ++
  "  \x7binit,validate,tokens\x7d\n" ++
  "    init                Scaffold a starter workspace\n" ++
  "    validate            Validate a workspace\n" ++
  "    tokens              Compile tokens for a platform and theme\n" ++
  "\n" ++
  "options:\n" ++
  "  -h, --help            show this help message and exit\n" ++
  "  --debug               Enable debug logging\n"

def initHelp : String := initUsage ++
  "\n" ++
  "positional arguments:\n" ++
  "  path        Target directory (default: .)\n" ++
  "\n" ++
  "options:\n" ++
  "  -h, --help  show this help message and exit\n" ++
  "  --force     Overwrite an existing workspace\n"

/-- The help on the options that commands with a workspace share. -/
def workspaceHelp : String :=
  "\n" ++
  "options:\n" ++
  "  -h, --help            show this help message and exit\n" ++
  "  -w WORKSPACE, --workspace WORKSPACE\n" ++
  "                        Workspace root (default: .)\n"

def validateHelp : String := validateUsage ++ workspaceHelp

def tokensHelp : String := tokensUsage ++ workspaceHelp ++
  "  --platform \x7bweb,rn\x7d   Target platform (default: web)\n" ++
  "  --theme \x7blight,dark\x7d  Theme (default: light)\n" ++
  "  --format \x7bjson,css,ts\x7d\n" ++
  "                        Output format (default: json)\n"

def mainGrammar : Grammar where
  program := program
  usage := mainUsage
  help := mainHelp
  options := [helpOption, ⟨"debug", ["--debug"], .flag⟩]
  operand := .command "command" ["init", "validate", "tokens"]

def initGrammar : Grammar where
  program := program ++ " init"
  usage := initUsage
  help := initHelp
  options := [helpOption, ⟨"force", ["--force"], .flag⟩]
  operand := .optional "path"

def validateGrammar : Grammar where
  program := program ++ " validate"
  usage := validateUsage
  help := validateHelp
  options := [helpOption, workspaceOption]
  operand := .none

def tokensGrammar : Grammar where
  program := program ++ " tokens"
  usage := tokensUsage
  help := tokensHelp
  options := [helpOption, workspaceOption, memberOption Platform "platform",
    memberOption Theme "theme", memberOption ExportFormat "format"]
  operand := .none

/-! ## Commands -/

/-- The last value of a setting, which may be none; nothing if the setting is not made. -/
def setting? (state : Grammar.State) (name : String) : Option (Option String) :=
  state.settings.reverse.lookup name

/-- The last value of a setting, a default without the setting. -/
def setting (state : Grammar.State) (name default : String) : Option String :=
  (setting? state name).getD (some default)

/-- The member of a vocabulary that a setting names, a default without the setting. -/
def memberSetting {α : Type} [Vocabulary α] (state : Grammar.State) (name : String)
    (default : α) : Option α :=
  match setting? state name with
  | some word => word.bind Vocabulary.member?
  | none => some default

/-- The words that a grammar does not take are a fault of the whole command line. -/
def refuseLeftOver (before : Grammar.State) (state : Grammar.State) (command : Command) :
    Except Notice Command :=
  match before.leftOver ++ state.leftOver with
  | [] => .ok command
  | words => mainGrammar.fault ("unrecognized arguments: " ++ String.intercalate " " words)

def Command.ofWords (words : List String) : Except Notice Command := do
  let state ← mainGrammar.parse words
  let arguments := state.arguments.getD []
  match setting state "command" "" with
  | some "init" => do
    let options ← initGrammar.parse arguments
    refuseLeftOver state options
      (.init ((setting options "path" ".").getD ".") (setting? options "force").isSome)
  | some "validate" => do
    let options ← validateGrammar.parse arguments
    refuseLeftOver state options (.validate (setting options "workspace" "."))
  | _ => do
    let options ← tokensGrammar.parse arguments
    refuseLeftOver state options (.tokens (setting options "workspace" ".")
      (memberSetting options "platform" .web) (memberSetting options "theme" .light)
      (memberSetting options "format" .json))

end DesignSystem.CommandLine
