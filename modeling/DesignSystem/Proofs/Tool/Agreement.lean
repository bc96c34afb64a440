import DesignSystem.CommandLine.Run
import DesignSystem.Proofs.Json.Encodable
import DesignSystem.Proofs.Workspace.Readable
import DesignSystem.Proofs.Workspace.Spelling
import DesignSystem.Tool

/-! # Command lines and tools agree

A command line resolves the root that its words name, and a tool takes a workspace as it is spelled.
Both tell how the same operation ends, where the spellings lead to one directory. A tool tells it of
all texts; a command line stops at one that has no bytes.

* `CommandLine.Prints`: a run prints something, unless it cannot be printed.
* `CommandLine.run_tokens`, `CommandLine.run_validate`: what a command line prints, by how the
  operation ends.
* `Tool.Answers`: a call of a tool answers with the text of an object.
* `Tool.getTokens_answers`, `Tool.getTokens_fails`, `Tool.validateWorkspace_answers`: what a tool
  answers, likewise.
* `CommandLine.run_agrees`: both together.
-/

namespace DesignSystem
set_option autoImplicit false

/-! ## Printed lines -/

namespace CommandLine
variable {directory root : String} {disk : Disk} {words : List String}

/-- What is printed names a code as that of an error. -/
def NamesCode (text : String) (code : FailureCode) : Prop :=
  ∃ rest, text = s!"Error [{code.word}]: " ++ rest

theorem errorLines_namesCode (failure : Failure) :
    NamesCode (errorLines (failureLines failure)) failure.code :=
  ⟨failure.message.escaped ++ ("\n" ++ errorLines (failureLines failure).tail), by
    simp only [errorLines, failureLines, List.map_cons, List.tail_cons, lines, Text.escaped_append,
      Text.escaped_ofString, String.append_assoc]⟩

/-- A run that leaves the disk as it is prints something if that can be printed, and otherwise stops
at a surrogate on its own. -/
def Prints (run : Except Abort Printed × Disk) (disk : Disk) (printable : Prop)
    (shows : Printed → Prop) : Prop :=
  (printable → ∃ printed, run = (.ok printed, disk) ∧ shows printed) ∧
    (¬ printable → ∃ fault, run = (.error (.unencodable fault), disk))

theorem Prints.printable {run : Except Abort Printed × Disk} {printable : Prop}
    {shows : Printed → Prop} (prints : Prints run disk printable shows)
    (ends : run.1.isOk = true) : printable := by
  by_contra lone
  obtain ⟨fault, stops⟩ := prints.2 lone
  rw [stops] at ends
  cases ends

/-- What standard output takes. -/
theorem output_of_unicode {text : Text} (unicode : text.isUnicode = true) :
    output text = .ok text.shown := by
  rw [output, Utf8.unencodable?_eq_none.mpr (List.all_eq_true.mp unicode)]

theorem output_of_lone {text : Text} (lone : ¬ text.isUnicode = true) :
    ∃ fault, output text = .error (.unencodable fault) := by
  unfold output
  cases encodes : Utf8.unencodable? text.points with
  | some fault => exact ⟨fault, rfl⟩
  | none => exact absurd (List.all_eq_true.mpr (Utf8.unencodable?_eq_none.mp encodes)) lone

theorem outputLines_of_unicode {texts : List Text}
    (unicode : ∀ text ∈ texts, text.isUnicode = true) :
    ∃ printed, outputLines texts = .ok printed := by
  induction texts with
  | nil => exact ⟨_, rfl⟩
  | cons text texts ih =>
    rw [List.forall_mem_cons] at unicode
    obtain ⟨rest, prints⟩ := ih unicode.2
    rw [outputLines, output_of_unicode unicode.1, prints]
    exact ⟨_, rfl⟩

/-- Lines are printed up to the first one that cannot be printed. -/
theorem outputLines_of_lone {texts : List Text}
    (lone : ¬ ∀ text ∈ texts, text.isUnicode = true) :
    ∃ fault, outputLines texts = .error (.unencodable fault) := by
  induction texts with
  | nil => simp at lone
  | cons text texts ih =>
    rw [List.forall_mem_cons, not_and_or] at lone
    by_cases unicode : text.isUnicode = true
    · obtain ⟨fault, stops⟩ := ih (lone.resolve_left (absurd unicode))
      exact ⟨fault, by rw [outputLines, output_of_unicode unicode, stops]; rfl⟩
    · obtain ⟨fault, stops⟩ := output_of_lone unicode
      exact ⟨fault, by rw [outputLines, stops]; rfl⟩

/-- The lines about a valid workspace are its own words, but for the name of the system and its
version. -/
theorem accepted_isUnicode (manifest : SystemManifest) (contracts : List String)
    (files : TokenFiles) : (∀ line ∈ accepted manifest contracts files, line.isUnicode = true) ↔
      manifest.name.isUnicode = true ∧ manifest.version.isUnicode = true := by
  simp only [accepted, List.forall_mem_cons, List.forall_mem_append, List.forall_mem_map,
    Text.isUnicode_append, Text.isUnicode_ofString, Bool.and_eq_true]
  simp

/-- The workspace that the words of a command line name. -/
def resolved (directory root : String) : Workspace := ⟨(Path.ofText root).resolve directory⟩

theorem run_eq {command : Command} (h : Command.ofWords words = .ok command) :
    run directory disk words = runCommand directory disk command := by
  rw [run, h]

theorem workspaceAt_eq (noNul : (Path.ofText root).hasNul = false) :
    workspaceAt directory (some root) = .ok (resolved directory root) := by
  rw [workspaceAt, if_neg (by simp [noNul])]
  rfl

/-- What a command line for tokens prints. -/
theorem run_tokens {platform : Platform} {theme : Theme} {format : ExportFormat}
    (asks : Command.ofWords words =
      .ok (.tokens (some root) (some platform) (some theme) (some format)))
    (noNul : (Path.ofText root).hasNul = false) :
    (∀ tokens, (resolved directory root).compile disk platform theme = .ok tokens →
      ∃ text, exportTokens format tokens.scalars = .ok text ∧
        Prints (run directory disk words) disk (text.isUnicode = true)
          (· = ⟨0, text.shown, ""⟩)) ∧
    ∀ failure, (resolved directory root).compile disk platform theme = .failed failure →
      ∃ stderr, run directory disk words = (.ok ⟨1, "", stderr⟩, disk) ∧
        NamesCode stderr failure.code := by
  rw [run_eq asks, runCommand, workspaceAt_eq noNul]
  simp only [Except.bind, runTokens, requireMember, bind]
  constructor
  · intro tokens compiles
    obtain ⟨text, exports⟩ := (Workspace.compile_exportable compiles).exports format
    refine ⟨text, exports, fun unicode => ⟨_, ?_, rfl⟩, fun lone => ?_⟩
    · simp only [compiles, exports, output_of_unicode unicode]
      rfl
    · obtain ⟨fault, stops⟩ := output_of_lone lone
      refine ⟨fault, ?_⟩
      simp only [compiles, exports, stops]
  · intro failure fails
    refine ⟨_, ?_, errorLines_namesCode failure⟩
    simp only [fails]
    rfl

/-- The summary of a valid workspace can be printed if its token files can be listed. -/
theorem summary_of_valid {workspace : Workspace} (valid : workspace.Valid disk)
    {files : TokenFiles} (lists : workspace.tokenFiles disk = .ok files) :
    ∃ manifest contracts, workspace.system.read disk = .ok manifest ∧
      summary workspace disk = .ok (accepted manifest contracts files) := by
  obtain ⟨there, documents⟩ := Workspace.valid_iff_documents.mp valid
  obtain ⟨names, root⟩ := Workspace.isThere_iff.mp there
  obtain ⟨system, ⟨contracts, listed, -⟩, -⟩ := (Workspace.documents_eq_nil root).mp documents
  obtain ⟨manifest, reads⟩ := (workspace.system_atLocation.read_iff root).mpr system
  refine ⟨manifest, contracts, reads, ?_⟩
  rw [summary, reads, listed, lists]
  rfl

/-- What a command line for a validation prints. -/
theorem run_validate (asks : Command.ofWords words = .ok (.validate (some root)))
    (noNul : (Path.ofText root).hasNul = false) {report : Report}
    (there : (resolved directory root).isThere disk = true)
    (validates : (resolved directory root).validate disk = .ok report)
    (lists : report.valid = true → ∃ files, (resolved directory root).tokenFiles disk = .ok files) :
    (report.valid = false → ∃ printed, run directory disk words = (.ok printed, disk) ∧
      printed.exitCode = 1) ∧
    (report.valid = true → ∃ manifest, (resolved directory root).system.read disk = .ok manifest ∧
      Prints (run directory disk words) disk
        (manifest.name.isUnicode = true ∧ manifest.version.isUnicode = true)
        (·.exitCode = 0)) := by
  rw [run_eq asks, runCommand, workspaceAt_eq noNul]
  simp only [Except.bind, runValidate, there, validates, bind]
  constructor
  · intro invalid
    simp only [invalid]
    exact ⟨_, rfl, rfl⟩
  · intro valid
    obtain ⟨files, lists⟩ := lists valid
    obtain ⟨manifest, contracts, reads, sums⟩ :=
      summary_of_valid ⟨report, validates, valid⟩ lists
    refine ⟨manifest, reads, ?_⟩
    rw [← accepted_isUnicode manifest contracts files]
    constructor
    · intro unicode
      obtain ⟨text, prints⟩ := outputLines_of_unicode unicode
      simp only [valid, sums, prints]
      exact ⟨_, rfl, rfl⟩
    · intro lone
      obtain ⟨fault, stops⟩ := outputLines_of_lone lone
      simp only [valid, sums, stops]
      exact ⟨fault, rfl⟩

end CommandLine

/-! ## Answers -/

namespace Tool
variable {workspace : Workspace} {disk : Disk} {arguments : Fields}

/-- A call of a tool answers with a text that is read as an object with these fields. -/
def Answers (workspace : Workspace) (disk : Disk) (arguments : Fields) (tool : Tool)
    (fields : Fields) : Prop :=
  ∃ text, tool.call workspace disk arguments = .ok text ∧
    Json.read true text.toList = .ok (.object fields)

/-- A document and what is read from its text. -/
def told (fields : Fields) : Fields := fields.map fun field => (field.1, field.2.joined)

theorem get?_told {fields : Fields} {name : String} {document : Json}
    (found : fields.get? name = some document) (isJoined : document.IsJoined) :
    (told fields).get? name = some document :=
  Json.get?_joined_eq_some isJoined found

theorem answers_of_body {tool : Tool} {fields : Fields}
    (h : tool.body workspace disk arguments = payload fields)
    (readable : (Json.object fields).Readable) :
    Answers workspace disk arguments tool (told fields) := by
  have reads := readable.read_text
  rw [Json.joined_object] at reads
  refine ⟨(Json.object fields).text .asciiLine, ?_, reads⟩
  rw [call, h, payload, if_neg (by simp [readable.2])]

/-- An answer that tells of a failure has its code. -/
structure TellsFailure (fields : Fields) (failure : Failure) : Prop where
  status : fields.get? "status" = some (.string "error")
  code : fields.get? "code" = some (.string failure.code.word)

theorem failure_answers {tool : Tool} {reason : Failure}
    (h : tool.body workspace disk arguments = failure reason)
    (details : (Json.object reason.details).Readable) :
    ∃ fields, Answers workspace disk arguments tool fields ∧ TellsFailure fields reason := by
  have text := Json.readable_cumulative.text
  have path : (pathDocument reason.path).Readable := by
    unfold pathDocument
    cases reason.path with
    | none => exact ⟨.null, rfl⟩
    | some path => exact text path
  refine ⟨_, answers_of_body h ?_, get?_told rfl (Json.isJoined_string _),
    get?_told rfl (Json.isJoined_string _)⟩
  refine Json.readable_cumulative.object ?_ ?_
  · split <;> simp
  · split <;> simp [text, path, details]

/-- The arguments of a call that ask for the tokens of a platform and a theme in a format; JSON if
they leave it out. -/
structure AsksFor (arguments : Fields) (platform : Platform) (theme : Theme)
    (format : ExportFormat) : Prop where
  platform : argument arguments "platform" = .string (Vocabulary.word platform)
  theme : argument arguments "theme" = .string (Vocabulary.word theme)
  format : (arguments.get? "format").getD (.string "json") = .string (Vocabulary.word format)

theorem getTokens_body {platform : Platform} {theme : Theme} {format : ExportFormat}
    (asks : AsksFor arguments platform theme format) :
    getTokens.body workspace disk arguments =
      reply (tokens workspace disk platform theme format) := by
  have platformMember : (Vocabulary.member? (Vocabulary.word platform) : Option Platform) =
      some platform := by cases platform <;> rfl
  have themeMember : (Vocabulary.member? (Vocabulary.word theme) : Option Theme) =
      some theme := by cases theme <;> rfl
  have formatMember : (Vocabulary.member? (Vocabulary.word format) : Option ExportFormat) =
      some format := by cases format <;> rfl
  simp only [body, tokensAnswer, asks.platform, asks.theme, asks.format, withMember,
    Text.string?_ofString, Option.bind_some, platformMember, themeMember, formatMember]

/-- An answer that tells tokens has them in order, and in other formats than JSON their text. -/
structure TellsTokens (fields : Fields) (tokens : CompiledTokens) (format : ExportFormat)
    (text : Text) : Prop where
  status : fields.get? "status" = some (.string "success")
  tokens : fields.get? "tokens" = some tokens.document
  output : format ≠ .json → fields.get? "output" = some (.string text)

theorem getTokens_answers {platform : Platform} {theme : Theme} {format : ExportFormat}
    (asks : AsksFor arguments platform theme format) {tokens : CompiledTokens} {text : Text}
    (compiles : workspace.compile disk platform theme = .ok tokens)
    (exports : exportTokens format tokens.scalars = .ok text) :
    ∃ fields, Answers workspace disk arguments getTokens fields ∧
      TellsTokens fields tokens format text := by
  have string := Json.readable_cumulative.text
  have exportable := Workspace.compile_exportable compiles
  have document := exportable.document_readable
  have output : (Json.string text).IsJoined := by
    simpa [Json.IsJoined, Json.texts] using exportable.text_isJoined exports
  have body := @getTokens_body workspace disk _ _ _ _ asks
  by_cases json : format = .json
  · rw [Tool.tokens, compiles] at body
    simp only [bind, Outcome.bind, json, if_true] at body
    refine ⟨_, answers_of_body body ?_, get?_told rfl (Json.isJoined_string _),
      get?_told rfl exportable.document_isJoined, fun other => absurd json other⟩
    exact Json.readable_cumulative.object (by simp) (by simp [string, document, Encoded.word])
  · rw [Tool.tokens, compiles] at body
    simp only [bind, Outcome.bind, if_neg json, exports] at body
    refine ⟨_, answers_of_body body ?_, get?_told rfl (Json.isJoined_string _),
      get?_told rfl exportable.document_isJoined, fun _ => get?_told rfl output⟩
    exact Json.readable_cumulative.object (by simp) (by simp [string, document, Encoded.word])

theorem getTokens_fails {platform : Platform} {theme : Theme} {format : ExportFormat}
    (sized : disk.Sized) (asks : AsksFor arguments platform theme format) {reason : Failure}
    (fails : workspace.compile disk platform theme = .failed reason) :
    ∃ fields, Answers workspace disk arguments getTokens fields ∧ TellsFailure fields reason := by
  refine failure_answers ?_ (Workspace.compile_details_readable sized fails)
  rw [getTokens_body asks, Tool.tokens, fails]
  rfl

/-- An answer that tells a report has its issues in order, with their places and codes. -/
structure TellsReport (fields : Fields) (report : Report) : Prop where
  status : fields.get? "status" = some (.string "success")
  valid : fields.get? "valid" = some (.bool report.valid)
  errors : ∃ errors : List Fields, fields.get? "errors" = some (.array (errors.map Json.object)) ∧
    List.Forall₂ (fun error issue => error.get? "path" = some (.string issue.place.text) ∧
      error.get? "code" = some (.string issue.code)) errors report.issues

theorem told_issue (issue : Issue) : ∃ error : Fields, issue.document.joined = .object error ∧
    error.get? "path" = some (.string issue.place.text) ∧
      error.get? "code" = some (.string issue.code) :=
  ⟨_, Json.joined_object _, get?_told rfl (Json.isJoined_string _),
    get?_told rfl (Json.isJoined_string _)⟩

theorem validateWorkspace_answers (sized : disk.Sized) {report : Report}
    (validates : workspace.validate disk = .ok report) :
    ∃ fields, Answers workspace disk arguments validateWorkspace fields ∧
      TellsReport fields report := by
  have issues := Workspace.validate_readable sized validates
  choose error document path code using told_issue
  refine ⟨told (("status", .string "success") :: reportFields report), answers_of_body ?_ ?_,
    get?_told rfl (Json.isJoined_string _), get?_told rfl (Json.isJoined_built.bool _),
    report.issues.map error, ?_, ?_⟩
  · rw [body, validates]
    rfl
  · refine Json.readable_cumulative.object (by simp [reportFields]) ?_
    have valid : (Json.bool report.valid).Readable := ⟨.bool _, rfl⟩
    simp [reportFields, Json.readable_cumulative.text, valid, issues]
  · have found : Fields.get? (("status", .string "success") :: reportFields report) "errors" =
        some report.issueDocuments := rfl
    rw [told, Json.get?_joined, found, Report.issueDocuments, Option.map_some, Json.joined_array,
      List.map_map, List.map_map]
    exact congrArg (some ∘ Json.array) (List.map_congr_left fun issue _ => document issue)
  · rw [List.forall₂_map_left_iff, List.forall₂_same]
    exact fun issue _ => ⟨path issue, code issue⟩

end Tool

/-! ## Agreement -/

/-- Whether an operation fails with a code. -/
def Outcome.failsWith {α : Type} (code : FailureCode) : Outcome α → Bool
  | failed failure => failure.code == code
  | _ => false

theorem Outcome.failsWith_iff {α : Type} {outcome : Outcome α} {code : FailureCode} :
    outcome.failsWith code = true ↔
      ∃ failure, outcome = .failed failure ∧ failure.code = code := by
  cases outcome <;> simp [failsWith]

/-- Whether an outcome is a value that passes a test. -/
def Outcome.yields {α : Type} (test : α → Bool) : Outcome α → Bool
  | .ok value => test value
  | _ => false

theorem Outcome.yields_ok {α : Type} (test : α → Bool) (value : α) :
    (Outcome.ok value).yields test = test value := rfl

/-- Where tokens are compiled, the root leads to a directory. -/
theorem Workspace.leads_of_compile {workspace : Workspace} {disk : Disk} {platform : Platform}
    {theme : Theme} {tokens : CompiledTokens}
    (compiles : workspace.compile disk platform theme = .ok tokens) :
    disk.Leads workspace.root := by
  obtain ⟨core, reads, -⟩ := Outcome.bind_eq_ok compiles
  obtain ⟨bytes, document, found, -⟩ := Slot.read_eq_ok.mp reads
  rw [workspace.core_atLocation.path] at found
  obtain ⟨names, root⟩ := Disk.hasDirectory_of_readFile Location.core.tail_plain
    (List.cons_ne_nil _ _) found
  exact root.leads

/-- Compiling stops at a root with a NUL character. -/
theorem Workspace.noNul_of_compile {workspace : Workspace} {disk : Disk} {platform : Platform}
    {theme : Theme} (runs : ∀ abort, workspace.compile disk platform theme ≠ .aborted abort) :
    workspace.root.hasNul = false := by
  refine eq_false_of_ne_true fun nul => runs .nulInPath ?_
  have coreNul : workspace.core.path.hasNul = true := by
    rw [workspace.core_atLocation.path, Path.hasNul_below, nul, Bool.true_or]
  have reads : workspace.core.read disk = .aborted .nulInPath := by
    simp only [Slot.read, Slot.load, Disk.readFile, Disk.locate, Disk.access, coreNul, if_true]
    rfl
  rw [compile, reads]
  rfl

namespace CommandLine
variable {directory root : String} {disk : Disk} {words : List String} {arguments : Fields}

/-- A path below a root has too many bytes as it is spelled and as a command line spells it, or in
neither spelling. -/
def SpelledAlike (directory root : String) (tail : List String) : Prop :=
  Disk.LongAlike (Workspace.ofText root).root (resolved directory root).root tail

instance (directory root : String) (tail : List String) :
    Decidable (SpelledAlike directory root tail) :=
  inferInstanceAs (Decidable (Disk.LongAlike _ _ tail))

section
variable {platform : Platform} {theme : Theme} {format : ExportFormat}
  (asksLine : Command.ofWords words =
    .ok (.tokens (some root) (some platform) (some theme) (some format)))
  (asksTool : Tool.AsksFor arguments platform theme format)
  (long : ∀ location ∈ [Location.core, .semantic theme, .platform platform],
    SpelledAlike directory root location.tail)

include asksLine asksTool long

theorem tokens_agree {tokens : CompiledTokens}
    (compiles : (Workspace.ofText root).compile disk platform theme = .ok tokens) :
    ∃ text fields, exportTokens format tokens.scalars = .ok text ∧
      Prints (run directory disk words) disk (text.isUnicode = true) (· = ⟨0, text.shown, ""⟩) ∧
      Tool.Answers (.ofText root) disk arguments .getTokens fields ∧
      Tool.TellsTokens fields tokens format text := by
  have noNul := Workspace.noNul_of_compile fun abort aborts => by cases compiles.symm.trans aborts
  have same : ((Workspace.ofText root).compile disk platform theme).verdict =
      ((resolved directory root).compile disk platform theme).verdict :=
    Workspace.compile_verdict ((Workspace.leads_of_compile compiles).alike noNul directory)
      platform theme long
  obtain ⟨text, exports, runs⟩ :=
    (run_tokens asksLine noNul).1 tokens (Outcome.eq_ok_of_verdict same compiles)
  obtain ⟨fields, answers, tells⟩ := Tool.getTokens_answers asksTool compiles exports
  exact ⟨text, fields, exports, runs, answers, tells⟩

theorem failure_agrees (leads : disk.Leads (Workspace.ofText root).root) (sized : disk.Sized)
    {failure : Failure}
    (fails : (Workspace.ofText root).compile disk platform theme = .failed failure) :
    ∃ stderr fields, run directory disk words = (.ok ⟨1, "", stderr⟩, disk) ∧
      NamesCode stderr failure.code ∧
      Tool.Answers (.ofText root) disk arguments .getTokens fields ∧
      Tool.TellsFailure fields failure := by
  have noNul := Workspace.noNul_of_compile fun abort aborts => by cases fails.symm.trans aborts
  have same : ((Workspace.ofText root).compile disk platform theme).verdict =
      ((resolved directory root).compile disk platform theme).verdict :=
    Workspace.compile_verdict (leads.alike noNul directory) platform theme long
  obtain ⟨reason, failsResolved, code⟩ := Outcome.eq_failed_of_verdict same fails
  obtain ⟨stderr, runs, names⟩ := (run_tokens asksLine noNul).2 reason failsResolved
  obtain ⟨fields, answers, tells⟩ := Tool.getTokens_fails sized asksTool fails
  exact ⟨stderr, fields, runs, code ▸ names, answers, tells⟩

end

theorem validation_agrees (asks : Command.ofWords words = .ok (.validate (some root)))
    (long : ∀ tail, Workspace.Visits disk (Workspace.ofText root).root.names tail →
      SpelledAlike directory root tail) (sized : disk.Sized)
    {report : Report} (there : (Workspace.ofText root).isThere disk = true)
    (validates : (Workspace.ofText root).validate disk = .ok report)
    (lists : report.valid = true → ∃ files, (Workspace.ofText root).tokenFiles disk = .ok files) :
    (report.valid = false →
      ∃ printed, run directory disk words = (.ok printed, disk) ∧ printed.exitCode = 1) ∧
    (report.valid = true → ∃ manifest, (Workspace.ofText root).system.read disk = .ok manifest ∧
      Prints (run directory disk words) disk
        (manifest.name.isUnicode = true ∧ manifest.version.isUnicode = true)
        (·.exitCode = 0)) ∧
    ∃ fields, Tool.Answers (.ofText root) disk arguments .validateWorkspace fields ∧
      Tool.TellsReport fields report := by
  obtain ⟨names, directoryThere⟩ := Workspace.isThere_iff.mp there
  have noNul := directoryThere.reaches.usable.noNul
  have alike : disk.Alike (Workspace.ofText root).root (resolved directory root).root _ :=
    directoryThere.leads.alike noNul directory
  obtain ⟨found, validatesResolved, marks⟩ :=
    Workspace.validate_marks alike long there validates
  have valid : found.valid = report.valid := by
    have length := congrArg List.isEmpty marks
    rwa [List.isEmpty_map, List.isEmpty_map] at length
  have listsResolved : found.valid = true →
      ∃ files, (resolved directory root).tokenFiles disk = .ok files := by
    intro isValid
    obtain ⟨files, lists⟩ := lists (valid ▸ isValid)
    exact ⟨files, Workspace.tokenFiles_of_alike alike long lists⟩
  obtain ⟨rejects, accepts⟩ := run_validate asks noNul
    (Workspace.isThere_of_alike alike long there) validatesResolved listsResolved
  refine ⟨valid ▸ rejects, fun isValid => ?_, Tool.validateWorkspace_answers sized validates⟩
  obtain ⟨manifest, reads, prints⟩ := accepts (valid.trans isValid)
  have same : ((Workspace.ofText root).system.read disk).verdict =
      ((resolved directory root).system.read disk).verdict :=
    Workspace.read_verdict alike .system (long _ (.document (by simp)))
  exact ⟨manifest, Outcome.eq_ok_of_verdict same.symm reads, prints⟩

/-- Command lines and tools tell how compiling and validating end, if the paths below the root are
too long in both of its spellings or in neither; that compiling fails, if every double dot in the
root leaves a directory that is there as well. A command line does not tell texts that cannot be
printed. -/
theorem run_agrees (directory root : String) (disk : Disk) :
    (∀ (platform : Platform) (theme : Theme) (format : ExportFormat) (words : List String)
        (arguments : Fields),
      Command.ofWords words =
        .ok (.tokens (some root) (some platform) (some theme) (some format)) →
      Tool.AsksFor arguments platform theme format →
      (∀ location ∈ [Location.core, .semantic theme, .platform platform],
        SpelledAlike directory root location.tail) →
      (∀ tokens, (Workspace.ofText root).compile disk platform theme = .ok tokens →
        ∃ text fields, exportTokens format tokens.scalars = .ok text ∧
          Prints (run directory disk words) disk (text.isUnicode = true)
            (· = ⟨0, text.shown, ""⟩) ∧
          Tool.Answers (.ofText root) disk arguments .getTokens fields ∧
          Tool.TellsTokens fields tokens format text) ∧
      (disk.Leads (Workspace.ofText root).root → disk.Sized →
        ∀ failure, (Workspace.ofText root).compile disk platform theme = .failed failure →
          ∃ stderr fields, run directory disk words = (.ok ⟨1, "", stderr⟩, disk) ∧
            NamesCode stderr failure.code ∧
            Tool.Answers (.ofText root) disk arguments .getTokens fields ∧
            Tool.TellsFailure fields failure)) ∧
    ∀ (words : List String) (arguments : Fields) (report : Report),
      Command.ofWords words = .ok (.validate (some root)) →
      (∀ tail, Workspace.Visits disk (Workspace.ofText root).root.names tail →
        SpelledAlike directory root tail) →
      disk.Sized →
      (Workspace.ofText root).isThere disk = true →
      (Workspace.ofText root).validate disk = .ok report →
      (report.valid = true → ∃ files, (Workspace.ofText root).tokenFiles disk = .ok files) →
      (report.valid = false →
        ∃ printed, run directory disk words = (.ok printed, disk) ∧ printed.exitCode = 1) ∧
      (report.valid = true →
        ∃ manifest, (Workspace.ofText root).system.read disk = .ok manifest ∧
          Prints (run directory disk words) disk
            (manifest.name.isUnicode = true ∧ manifest.version.isUnicode = true)
            (·.exitCode = 0)) ∧
      ∃ fields, Tool.Answers (.ofText root) disk arguments .validateWorkspace fields ∧
        Tool.TellsReport fields report := by
  constructor
  · intro platform theme format words arguments asksLine asksTool long
    constructor
    · intro tokens compiles
      exact tokens_agree asksLine asksTool long compiles
    · intro leads sized failure fails
      exact failure_agrees asksLine asksTool long leads sized fails
  · intro words arguments report asks long sized there validates lists
    exact validation_agrees asks long sized there validates lists

/-! ## A workspace with one theme -/

/-- The token files of one theme and one platform. -/
def inkTokens : List (String × Entry) :=
  [("core.json", .file (Slot.bytes (.object [
      ("tokens", .object [("ink", .object [("value", .string "#111111")])])]))),
    ("semantic.light.json", .file (Slot.bytes (.object [("$theme", .string "light"),
      ("tokens", .object [("text", .object [("ref", .string "ink")])])]))),
    ("platform.web.json", .file (Slot.bytes (.object [("$platform", .string "web"),
      ("rules", .array [])])))]

/-- A disk with a workspace of these tokens, without contracts. -/
def inkDisk : Disk := ⟨[("ws", .directory [
  ("system.json", .file (Slot.bytes (.object [("name", .string "Ink"),
    ("version", .string "1.0.0")]))),
  ("tokens", .directory inkTokens)])]⟩

theorem inkDisk_sized : inkDisk.Sized := by
  have file (content : Bytes) (short : content.length < 1000) : (Entry.file content).Sized :=
    .file content (short.trans (by decide))
  refine .directory _ (List.forall_mem_singleton.mpr (.directory _ (List.forall_mem_cons.mpr
    ⟨file _ (by decide +kernel), List.forall_mem_singleton.mpr (.directory _ ?_)⟩)))
  simp only [inkTokens, List.forall_mem_cons]
  exact ⟨file _ (by decide +kernel), file _ (by decide +kernel), file _ (by decide +kernel),
    by simp⟩

theorem inkDisk_tokens {name : String}
    (there : inkDisk.node? ["ws", tokensFolder, name] ≠ none) :
    name ∈ ["core.json", "semantic.light.json", "platform.web.json"] := by
  change ((inkTokens.lookup name).bind (Entry.at? [])).map Entry.node ≠ none at there
  cases found : inkTokens.lookup name with
  | none => exact absurd (by rw [found]; rfl) there
  | some entry =>
    have named : (name, entry).1 ∈ inkTokens.map Prod.fst :=
      List.mem_map_of_mem (mem_of_lookup found)
    exact named

theorem inkDisk_spelledAlike {tail : List String}
    (visits : Workspace.Visits inkDisk ["ws"] tail) :
    SpelledAlike "/home" "ws/tokens/.." tail := by
  cases visits with
  | root => decide +kernel
  | folder folder => rcases folder with rfl | rfl <;> decide +kernel
  | @entry folder name folder there =>
    rcases folder with rfl | rfl
    · have listed := inkDisk_tokens there
      simp only [List.mem_cons, List.not_mem_nil, or_false] at listed
      rcases listed with rfl | rfl | rfl <;> decide +kernel
    · exact absurd rfl there
  | @document location there =>
    cases location with
    | system => decide +kernel
    | core => decide +kernel
    | semantic theme => cases theme <;> decide +kernel
    | platform target => cases target <;> decide +kernel
    | contract name => exact absurd rfl (there name rfl)

theorem inkDisk_tokenFiles :
    ∃ files, (Workspace.ofText "ws/tokens/..").tokenFiles inkDisk = .ok files := by
  have root : inkDisk.HasDirectory (Workspace.ofText "ws/tokens/..").root ["ws"] :=
    ⟨⟨⟨by decide +kernel, by decide +kernel⟩, rfl⟩, rfl, by decide⟩
  have usable : ((Workspace.ofText "ws/tokens/..").root.below [tokensFolder]).Usable :=
    ⟨by decide +kernel, by decide +kernel⟩
  have reach : inkDisk.InReach (Workspace.ofText "ws/tokens/..").root ["ws"] tokensFolder
      fun _ => true := by
    intro name _ there
    have listed := inkDisk_tokens there
    simp only [List.mem_cons, List.not_mem_nil, or_false] at listed
    rcases listed with rfl | rfl | rfl <;> decide +kernel
  obtain ⟨names, lists⟩ := (root.fileNames_below (Location.folder_plain (.inl rfl))
    (Location.folder_short (.inl rfl)) usable).mpr reach
  rw [Workspace.tokenFiles, show (Workspace.ofText "ws/tokens/..").tokensDirectory =
    (Workspace.ofText "ws/tokens/..").root.below [tokensFolder] from rfl, lists]
  exact ⟨_, rfl⟩

theorem inkDisk_compiles :
    ∃ tokens, (Workspace.ofText "ws/tokens/..").compile inkDisk .web .light = .ok tokens :=
  Outcome.exists_of_isOk (by decide +kernel)

theorem inkDisk_fails :
    ∃ failure, (Workspace.ofText "ws/tokens/..").compile inkDisk .web .dark = .failed failure ∧
      failure.code = .tokenFileNotFound :=
  Outcome.failsWith_iff.mp (by decide +kernel)

theorem inkDisk_valid :
    ∃ report, (Workspace.ofText "ws/tokens/..").validate inkDisk = .ok report ∧
      report.valid = true :=
  exists_of_toOption_any (by decide +kernel)

/-- Its light tokens are told, its dark ones are not found, and it is told to be valid. -/
theorem run_agrees_ink :
    inkDisk.Leads (Workspace.ofText "ws/tokens/..").root ∧ inkDisk.Sized ∧
    (∃ (text : String) (fields : Fields),
      run "/home" inkDisk ["tokens", "-w", "ws/tokens/..", "--format", "css"] =
        (.ok ⟨0, text, ""⟩, inkDisk) ∧
      Tool.Answers (.ofText "ws/tokens/..") inkDisk [("platform", .string "web"),
        ("theme", .string "light"), ("format", .string "css")] .getTokens fields ∧
      fields.get? "output" = some (.string text)) ∧
    (∃ stderr fields,
      run "/home" inkDisk ["tokens", "-w", "ws/tokens/..", "--theme", "dark"] =
        (.ok ⟨1, "", stderr⟩, inkDisk) ∧
      NamesCode stderr .tokenFileNotFound ∧
      Tool.Answers (.ofText "ws/tokens/..") inkDisk [("platform", .string "web"),
        ("theme", .string "dark")] .getTokens fields ∧
      fields.get? "code" = some (.string "TOKEN_FILE_NOT_FOUND")) ∧
    ∃ printed fields,
      run "/home" inkDisk ["validate", "-w", "ws/tokens/.."] = (.ok printed, inkDisk) ∧
      printed.exitCode = 0 ∧
      Tool.Answers (.ofText "ws/tokens/..") inkDisk [] .validateWorkspace fields ∧
      fields.get? "valid" = some (.bool true) := by
  have leads : inkDisk.Leads (Workspace.ofText "ws/tokens/..").root := rfl
  obtain ⟨tells, validates⟩ := run_agrees "/home" "ws/tokens/.." inkDisk
  refine ⟨leads, inkDisk_sized, ?_, ?_, ?_⟩
  · obtain ⟨tokens, compiles⟩ := inkDisk_compiles
    obtain ⟨text, fields, -, prints, answers, told⟩ := (tells .web .light .css
      ["tokens", "-w", "ws/tokens/..", "--format", "css"] [("platform", .string "web"),
        ("theme", .string "light"), ("format", .string "css")] rfl ⟨rfl, rfl, rfl⟩
        (by decide +kernel)).1 tokens compiles
    have unicode := prints.printable (by decide +kernel)
    obtain ⟨_, runs, rfl⟩ := prints.1 unicode
    have output := told.output (by decide)
    rw [← Text.ofString_shown unicode] at output
    exact ⟨_, fields, runs, answers, output⟩
  · obtain ⟨failure, fails, code⟩ := inkDisk_fails
    obtain ⟨stderr, fields, runs, names, answers, told⟩ := (tells .web .dark .json
      ["tokens", "-w", "ws/tokens/..", "--theme", "dark"] [("platform", .string "web"),
        ("theme", .string "dark")] rfl ⟨rfl, rfl, rfl⟩ (by decide +kernel)).2 leads inkDisk_sized
        failure fails
    exact ⟨stderr, fields, runs, code ▸ names, answers, by rw [told.code, code]; rfl⟩
  · obtain ⟨report, validated, valid⟩ := inkDisk_valid
    obtain ⟨-, accepts, fields, answers, told⟩ := validates
      ["validate", "-w", "ws/tokens/.."] [] report rfl
      (fun tail visits => inkDisk_spelledAlike visits) inkDisk_sized (by decide +kernel)
      validated fun _ => inkDisk_tokenFiles
    obtain ⟨manifest, reads, prints⟩ := accepts valid
    have unicode : ((Workspace.ofText "ws/tokens/..").system.read inkDisk).yields
        (fun manifest => manifest.name.isUnicode && manifest.version.isUnicode) = true := by
      decide +kernel
    rw [reads, Outcome.yields_ok, Bool.and_eq_true] at unicode
    obtain ⟨printed, runs, exits⟩ := prints.1 unicode
    exact ⟨printed, fields, runs, exits, answers, by rw [told.valid, valid]⟩

/-- At a root with a double dot that leaves nothing, a command line prints tokens that the workspace
does not find. -/
theorem run_agrees_missing :
    (∃ failure, (Workspace.ofText "missing/../ws").compile inkDisk .web .light =
      .failed failure ∧ failure.code = .tokenFileNotFound) ∧
    (run "/home" inkDisk ["tokens", "-w", "missing/../ws", "--format", "css"]).1 =
      .ok ⟨0, ":root \x7b\n  --text: #111111;\n\x7d\n", ""⟩ :=
  ⟨Outcome.failsWith_iff.mp (by decide +kernel), by decide +kernel⟩

end CommandLine
end DesignSystem
