import DesignSystem.Text.Digit
import DesignSystem.Text.Newline
import DesignSystem.Text.Quoted

/-! # The grammar of command lines

A command line is made of options, of operands, and of a separator after which everything is an
operand. Long options may be shortened while they stay unambiguous, take their value after an equals
sign or as the next word, and short ones may carry it attached. Words that nothing takes are handed
back.

* `OptionSpec`, `Operand`, `Grammar`: what a command accepts.
* `Grammar.classify`: the role of each word.
* `Grammar.parse`: the settings made and the words left over, or the notice to print instead.
-/

namespace DesignSystem.CommandLine
set_option autoImplicit false

/-! ## Grammars -/

inductive OptionKind where
  /-- Prints the help and ends. -/
  | help
  | flag
  /-- Takes a value, one of the choices if there are any. An attached separator is no value; the
  option is then set without one. -/
  | value (choices : List String)
  deriving DecidableEq

structure OptionSpec where
  /-- The setting that the option makes. -/
  setting : String
  spellings : List String
  kind : OptionKind
  deriving DecidableEq

namespace OptionSpec

/-- The spellings as they are named in messages. -/
def title (option : OptionSpec) : String := String.intercalate "/" option.spellings

def takesValue (option : OptionSpec) : Bool :=
  match option.kind with
  | .value _ => true
  | _ => false

end OptionSpec

inductive Operand where
  | none
  /-- One word, which may be missing. -/
  | optional (setting : String)
  /-- One of the words and everything after it. -/
  | command (setting : String) (choices : List String)
  deriving DecidableEq

structure Grammar where
  program : String
  usage : String
  help : String
  options : List OptionSpec
  operand : Operand

/-- What is printed instead of running a command. -/
inductive Notice where
  | help (text : String)
  | fault (usage program message : String)

namespace Notice

def stdout : Notice → String
  | help text => text
  | fault .. => ""

def stderr : Notice → String
  | help _ => ""
  | fault usage program message => s!"{usage}{program}: error: {message}\n"

def exitCode : Notice → Nat
  | help _ => 0
  | fault .. => 2

end Notice

def invalidChoice (title found : String) (choices : List String) : String :=
  s!"argument {title}: invalid choice: {quoted found} (choose from " ++
    String.intercalate ", " (choices.map fun choice : String => quoted choice) ++ ")"

/-! ## The roles of words -/

inductive Role where
  | operand
  | separator
  /-- An option with the text attached to its spelling or after an equals sign, if any. -/
  | option (option : OptionSpec) (spelling : String) (attached : Option (List Char))
  | unknownOption

def Role.isOption : Role → Bool
  | option .. | unknownOption => true
  | _ => false

structure Word where
  text : String
  role : Role

/-- Whether a text is a negative number in the digits of any script; one line feed may end it. -/
def isNegativeNumber (text : List Char) : Bool :=
  match dropFinalNewline text with
  | '-' :: rest =>
    match rest.span isDecimalDigit with
    | (whole, []) => !whole.isEmpty
    | (_, '.' :: fraction) => !fraction.isEmpty && fraction.all isDecimalDigit
    | _ => false
  | _ => false

/-- The text before the first equals sign, and the text after it if there is one. -/
def splitEquals (text : List Char) : List Char × Option (List Char) :=
  match text.span (· != '=') with
  | (before, '=' :: after) => (before, some after)
  | (before, _) => (before, none)

namespace Grammar

def option? (grammar : Grammar) (spelling : String) : Option OptionSpec :=
  grammar.options.find? (·.spellings.contains spelling)

def spellings (grammar : Grammar) : List (String × OptionSpec) :=
  grammar.options.flatMap fun option => option.spellings.map (·, option)

def fault {α : Type} (grammar : Grammar) (message : String) : Except Notice α :=
  .error (.fault grammar.usage grammar.program message)

/-- The options that a word may mean which is no spelling itself. -/
def candidates (grammar : Grammar) (text : List Char) : List (String × Role) :=
  if text.take 2 = ['-', '-'] then
    let (start, value) := splitEquals text
    (grammar.spellings.filter fun (spelling, _) => start.isPrefixOf spelling.toList).map
      fun (spelling, option) => (spelling, .option option spelling value)
  else
    grammar.spellings.filterMap fun (spelling, option) =>
      if spelling.toList = text.take 2 then
        some (spelling, .option option spelling (some (text.drop 2)))
      else if text.isPrefixOf spelling.toList then some (spelling, .option option spelling none)
      else none

/-- The role of a word with a dash in front that is neither an option nor one with its value. -/
def classifyDashed (grammar : Grammar) (text : String) : Except Notice Role :=
  match grammar.candidates text.toList with
  | [] =>
    if isNegativeNumber text.toList || text.toList.contains ' ' then .ok .operand
    else .ok .unknownOption
  | [(_, role)] => .ok role
  | several =>
    grammar.fault (s!"ambiguous option: {text} could match " ++
      String.intercalate ", " (several.map Prod.fst))

/-- The role of a word before any separator. -/
def classify (grammar : Grammar) (text : String) : Except Notice Role :=
  match text.toList with
  | '-' :: _ :: _ =>
    match grammar.option? text, splitEquals text.toList with
    | some option, _ => .ok (.option option text none)
    | none, (before, some value) =>
      match grammar.option? (.ofList before) with
      | some option => .ok (.option option (.ofList before) (some value))
      | none => grammar.classifyDashed text
    | none, (_, none) => grammar.classifyDashed text
  | _ => .ok .operand

def classifyAll (grammar : Grammar) : List String → Except Notice (List Word)
  | [] => .ok []
  | text :: rest =>
    if text = "--" then .ok (⟨text, .separator⟩ :: rest.map (⟨·, .operand⟩))
    else do
      let role ← grammar.classify text
      let words ← classifyAll grammar rest
      return ⟨text, role⟩ :: words

/-! ## Options -/

/-- The options of a word with their values, and the option whose value is the next word, if any. -/
structure Taken where
  done : List (OptionSpec × Option String)
  pending : Option OptionSpec

def ignoredValue (grammar : Grammar) (option : OptionSpec) (value : List Char) :
    Except Notice Taken :=
  grammar.fault
    s!"argument {option.title}: ignored explicit argument {quoted (String.ofList value)}"

def bare (option : OptionSpec) : Taken :=
  if option.takesValue then ⟨[], some option⟩ else ⟨[(option, none)], none⟩

def attachedValue (text : List Char) : Option String :=
  let value := String.ofList text
  if value = "--" then none else some value

/-- An option with attached text. The text of a short option without value is read as further short
options. -/
def attached (grammar : Grammar) (option : OptionSpec) (spelling : String) :
    List Char → Except Notice Taken
  | [] =>
    if option.takesValue then .ok ⟨[(option, attachedValue [])], none⟩
    else grammar.ignoredValue option []
  | c :: rest =>
    if option.takesValue then .ok ⟨[(option, attachedValue (c :: rest))], none⟩
    else if "--".toList.isPrefixOf spelling.toList then grammar.ignoredValue option (c :: rest)
    else
      let next := String.ofList ['-', c]
      match grammar.option? next with
      | none => grammar.ignoredValue option (c :: rest)
      | some other => do
        let taken ← match rest with
          | [] => .ok (bare other)
          | d :: rest => attached grammar other next (d :: rest)
        return { taken with done := (option, none) :: taken.done }

/-! ## Parsing -/

/-- What has been read of a command line. -/
structure State where
  /-- The settings made; those of flags have no value. -/
  settings : List (String × Option String)
  leftOver : List String
  operand : Operand
  /-- The words after the command. -/
  arguments : Option (List String)

/-- Whether a value is among the choices of an option, where it has any. -/
def offers (choices : List String) (value : Option String) : Bool :=
  choices.isEmpty || value.all choices.contains

def perform (grammar : Grammar) : List (OptionSpec × Option String) → State → Except Notice State
  | [], state => .ok state
  | (option, value) :: rest, state =>
    let made := { state with settings := state.settings ++ [(option.setting, value)] }
    match option.kind with
    | .help => .error (.help grammar.help)
    | .flag => perform grammar rest made
    | .value choices =>
      if offers choices value then perform grammar rest made
      else grammar.fault (invalidChoice option.title (value.getD "") choices)

/-- The count of words that the operand takes from the front of words, if it takes any action. -/
def operandCount (operand : Operand) (words : List Word) : Option Nat :=
  match operand with
  | .none => none
  | .optional _ =>
    some (match words.map Word.role with
      | .separator :: .operand :: _ => 2
      | .operand :: .separator :: _ => 2
      | .separator :: _ | .operand :: _ => 1
      | _ => 0)
  | .command .. =>
    match words.map Word.role with
    | .separator :: .operand :: _ | .operand :: _ => some words.length
    | _ => none

def withoutSeparator : List String → List String
  | [] => []
  | text :: rest => if text = "--" then rest else text :: withoutSeparator rest

def takeOperand (grammar : Grammar) (texts : List String) (state : State) :
    Except Notice State :=
  match state.operand with
  | .none => .ok state
  | .optional setting =>
    let taken := (withoutSeparator texts).map fun text => (setting, some text)
    .ok { state with settings := state.settings ++ taken, operand := .none }
  | .command setting choices =>
    let name := texts.headD ""
    if choices.contains name then
      .ok { state with
        settings := state.settings ++ [(setting, some name)]
        operand := .none
        arguments := some texts.tail }
    else grammar.fault (invalidChoice setting name choices)

/-- Reads words while options are among them; the fuel bounds the count of steps. -/
def readWords (grammar : Grammar) : Nat → List Word → State → Except Notice (List Word × State)
  | 0, words, state => .ok (words, state)
  | fuel + 1, words, state =>
    if !words.any (·.role.isOption) then .ok (words, state)
    else match words with
      | [] => .ok ([], state)
      | ⟨_, .option option spelling text⟩ :: rest => do
        let taken ← match text with
          | none => .ok (bare option)
          | some text => grammar.attached option spelling text
        match taken.pending, rest with
        | none, rest =>
          let state ← grammar.perform taken.done state
          readWords grammar fuel rest state
        | some option, ⟨value, .operand⟩ :: rest =>
          let state ← grammar.perform (taken.done ++ [(option, some value)]) state
          readWords grammar fuel rest state
        | some option, _ => grammar.fault s!"argument {option.title}: expected one argument"
      | ⟨text, .unknownOption⟩ :: rest =>
        readWords grammar fuel rest { state with leftOver := state.leftOver ++ [text] }
      | words =>
        match operandCount state.operand words with
        | some count => do
          let state ← grammar.takeOperand ((words.take count).map Word.text) state
          readWords grammar fuel (words.drop count) state
        | none =>
          let (operands, rest) := words.span (!·.role.isOption)
          readWords grammar fuel rest
            { state with leftOver := state.leftOver ++ operands.map Word.text }

/-- The settings made by words and the words left over. -/
def parse (grammar : Grammar) (texts : List String) : Except Notice State := do
  let words ← grammar.classifyAll texts
  let (words, state) ← grammar.readWords (words.length + 1) words ⟨[], [], grammar.operand, none⟩
  let count := operandCount state.operand words
  let state ← match count with
    | some count => grammar.takeOperand ((words.take count).map Word.text) state
    | none => .ok state
  match state.operand with
  | .command setting _ => grammar.fault s!"the following arguments are required: {setting}"
  | _ => return { state with
      leftOver := state.leftOver ++ (words.drop (count.getD 0)).map Word.text }

end Grammar
end DesignSystem.CommandLine
