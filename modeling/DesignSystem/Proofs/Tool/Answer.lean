import DesignSystem.Proofs.Json.Encodable
import DesignSystem.Proofs.Json.Grammar
import DesignSystem.Proofs.Tokens.Compiled
import DesignSystem.Tool

/-! # The answers of tools

Every call of a tool answers with the text of an object with a status. It is written by a lenient
writer, so a number without digits that is quoted from elsewhere makes it a text that is no JSON.

* `Tool.Quotes`: the documents from which an answer quotes parts.
* `Tool.Tells`: a text is that of an object with a status, made of such parts.
* `Tool.body_tells`: the answer of a tool that does not stop.
* `Tool.call_answers`: the answers of all tools.
-/

namespace DesignSystem
set_option autoImplicit false

open Json

namespace Tool

/-! ## Sources of answers -/

/-- The documents of a workspace that a tool reads. -/
def Reads (arguments : Fields) : Tool → Address → Prop
  | getComponent, .contract name => argument arguments "name" = .string name
  | validateUsage, .contract name => argument arguments "component" = .string name
  | getTokens, .core => True
  | getTokens, .semantic theme => argument arguments "theme" = .string theme
  | getTokens, .platform platform => argument arguments "platform" = .string platform
  | validateWorkspace, _ => True
  | _, _ => False

/-- A document from which the answer of a tool quotes parts as they are: it is read and rejected, or
it is the props whose usage is validated. -/
def Quotes (workspace : Workspace) (disk : Disk) (arguments : Fields) (tool : Tool)
    (document : Json) : Prop :=
  (∃ address, tool.Reads arguments address ∧ workspace.Rejects disk address document) ∨
    tool = .validateUsage ∧ document = argument arguments "props"

/-- The values of fields have every compositional property of the documents that are quoted. -/
def Passes (quoted : Json → Prop) (fields : Fields) : Prop :=
  ∀ holds, Compositional holds → (∀ document, quoted document → holds document) →
    ∀ field ∈ fields, holds field.2

/-- A text is that of an object with a status, which is written and takes over the properties of the
documents that are quoted. -/
structure Tells (quoted : Json → Prop) (text : String) (fields : Fields) : Prop where
  text : text = (Json.object fields).text .asciiLine
  writable : (Json.object fields).unwritable? false = none
  names : (fields.map Prod.fst).Nodup
  status : fields.get? "status" = some (.string "success") ∨
    fields.get? "status" = some (.string "error")
  passes : Passes quoted fields

variable {quoted : Json → Prop}

theorem Passes.cons_text {fields : Fields} (passes : Passes quoted fields) (name : String)
    (text : Text) : Passes quoted ((name, .string text) :: fields) :=
  fun holds compositional each =>
  List.forall_mem_cons.mpr ⟨compositional.text text, passes holds compositional each⟩

theorem Passes.append {fields others : Fields} (here : Passes quoted fields)
    (there : Passes quoted others) : Passes quoted (fields ++ others) :=
  fun holds compositional each => List.forall_mem_append.mpr
    ⟨here holds compositional each, there holds compositional each⟩

theorem passes_nil : Passes quoted [] := fun _ _ _ => by simp

/-- A document with finite numbers and distinct names has all properties in question. -/
theorem passes_finite {document : Json} (distinct : document.Distinct) (finite : document.Finite)
    (name : String) : Passes quoted [(name, document)] := fun holds compositional _ => by
  simpa using compositional.of_finite distinct finite

/-! ## Payloads -/

theorem payload_tells {fields : Fields} {text : String} (h : payload fields = .ok text)
    (names : (fields.map Prod.fst).Nodup)
    (status : fields.get? "status" = some (.string "success") ∨
      fields.get? "status" = some (.string "error"))
    (passes : Passes quoted fields) : Tells quoted text fields := by
  unfold payload at h
  split at h
  · cases h
  · next writable =>
    cases h
    exact ⟨rfl, by simpa using writable, names, status, passes⟩

theorem success_tells {fields : Fields} {text : String} (h : success fields = .ok text)
    (names : ("status" :: fields.map Prod.fst).Nodup) (passes : Passes quoted fields) :
    ∃ fields, Tells quoted text fields :=
  ⟨_, payload_tells h names (.inl rfl) (passes.cons_text _ _)⟩

theorem failure_tells {reason : Failure} {text : String} (h : failure reason = .ok text)
    (passes : Passes quoted [("details", .object reason.details)]) :
    ∃ fields, Tells quoted text fields := by
  have path : Passes quoted [("path", pathDocument reason.path)] := by
    unfold pathDocument
    cases reason.path with
    | none => exact passes_finite .null .null _
    | some path => exact passes_nil.cons_text _ _
  have head := ((path.cons_text "message" reason.message).cons_text "code"
    reason.code.word).cons_text "status" "error"
  unfold failure at h
  split at h
  · exact ⟨_, payload_tells h (by simp) (.inr rfl) (head.append passes_nil)⟩
  · exact ⟨_, payload_tells h (by simp) (.inr rfl) (head.append passes)⟩

theorem reply_tells {outcome : Outcome Fields} {text : String} (h : reply outcome = .ok text)
    (answers : ∀ fields, outcome = .ok fields →
      ("status" :: fields.map Prod.fst).Nodup ∧ Passes quoted fields)
    (fails : ∀ reason, outcome = .failed reason →
      Passes quoted [("details", .object reason.details)]) :
    ∃ fields, Tells quoted text fields := by
  cases outcome with
  | ok fields => exact success_tells h (answers fields rfl).1 (answers fields rfl).2
  | failed reason => exact failure_tells h (fails reason rfl)
  | aborted abort => cases h

theorem badArgument_tells {α : Type} [Vocabulary α] {name : String} {found : Json} {text : String}
    (h : badArgument α name found = .ok text) : ∃ fields, Tells quoted text fields := by
  unfold badArgument at h
  split at h
  · cases h
  · have path : Passes quoted [("path", .null)] := passes_finite .null .null _
    exact ⟨_, payload_tells h (by simp) (.inr rfl)
      (((path.cons_text _ _).cons_text _ _).cons_text _ _)⟩

theorem unexpected_tells (message : String) : ∃ fields, Tells quoted (unexpected message) fields :=
  ⟨_, rfl, rfl, by simp, .inr rfl, (passes_nil.cons_text _ _).cons_text _ _⟩

/-! ## Outcomes -/

section
variable {workspace : Workspace} {disk : Disk} {arguments : Fields}

/-- Where an address is read, the details of a failure to read it are made of what is quoted. -/
theorem passes_details (tool : Tool) (address : Address) (reads : tool.Reads arguments address)
    {reason : Failure} (fails : workspace.read disk address = .failed reason) :
    Passes (tool.Quotes workspace disk arguments) [("details", .object reason.details)] := by
  intro holds compositional each
  have details := Workspace.details_of_failed compositional.toCumulative
    (fun line column _ => ⟨compositional.int line, compositional.int column⟩)
    (fun document rejects => each document (.inl ⟨address, reads, rejects⟩)) fails
  simpa using details

theorem settled_ne_failed {α : Type} (settles : Except DiskError α) (reason : Failure) :
    settled settles ≠ .failed reason := by
  cases settles <;> simp [settled]

/-- A contract is looked for under a Unicode text. -/
theorem nameArgument_eq_ok {name text : String}
    (h : nameArgument workspace arguments name = .ok text) :
    argument arguments name = .string text := by
  unfold nameArgument at h
  split at h
  · next word found =>
    split at h
    · cases h
    · next encodes =>
      cases h
      have each := Utf8.unencodable?_eq_none.mp encodes
      rw [Text.points_append, List.forall_mem_append] at each
      rw [found, Text.ofString_shown (List.all_eq_true.mpr each.2)]
  · cases h

theorem nameArgument_ne_failed (name : String) (reason : Failure) :
    nameArgument workspace arguments name ≠ .failed reason := by
  unfold nameArgument
  split
  · split <;> simp
  · simp

theorem texts_distinct (texts : List String) : (Json.array (texts.map ofString)).Distinct := by
  refine .array _ fun item mem => ?_
  obtain ⟨text, -, rfl⟩ := List.mem_map.mp mem
  exact .string text

theorem texts_finite (texts : List String) : (Json.array (texts.map ofString)).Finite := by
  refine .array _ fun item mem => ?_
  obtain ⟨text, -, rfl⟩ := List.mem_map.mp mem
  exact .string text

theorem components_tells {text : String} (h : reply (components workspace disk) = .ok text) :
    ∃ fields, Tells quoted text fields := by
  refine reply_tells h (fun fields answers => ?_) fun reason fails => ?_
  · obtain ⟨names, -, answers⟩ := Outcome.bind_eq_ok answers
    cases answers
    exact ⟨by simp, (passes_finite (texts_distinct names) (texts_finite names) "components").append
      (passes_finite (.number _) (.int _) "count")⟩
  · rcases Outcome.bind_eq_failed fails with fails | ⟨names, -, fails⟩
    · exact absurd fails (settled_ne_failed _ _)
    · cases fails

theorem tokenFiles_document (files : TokenFiles) :
    files.document.Distinct ∧ files.document.Finite := by
  have entry {α : Type} [Vocabulary α] (key : String) (other : key ≠ "file")
      (entries : List (String × α)) :
      (Json.array (entries.map (TokenFiles.entryDocument key))).Distinct ∧
        (Json.array (entries.map (TokenFiles.entryDocument key))).Finite := by
    constructor
    · refine .array _ fun item mem => ?_
      obtain ⟨entry, -, rfl⟩ := List.mem_map.mp mem
      exact .object _ (by simpa using Ne.symm other) (by simp [Encoded.word, Distinct.string])
    · refine .array _ fun item mem => ?_
      obtain ⟨entry, -, rfl⟩ := List.mem_map.mp mem
      exact .object _ (by simp [Encoded.word, Finite.string])
  have semantic := entry "theme" (by decide) files.semantic
  have platform := entry "platform" (by decide) files.platform
  exact ⟨.object _ (by simp) (by simp [texts_distinct, semantic.1, platform.1]),
    .object _ (by simp [texts_finite, semantic.2, platform.2])⟩

theorem tokenFiles_tells {text : String} (h : reply (tokenFiles workspace disk) = .ok text) :
    ∃ fields, Tells quoted text fields := by
  refine reply_tells h (fun fields answers => ?_) fun reason fails => ?_
  · obtain ⟨files, -, answers⟩ := Outcome.bind_eq_ok answers
    cases answers
    obtain ⟨distinct, finite⟩ := tokenFiles_document files
    exact ⟨by simp, (passes_finite distinct finite "files").append
      (passes_finite (.number _) (.int _) "count")⟩
  · rcases Outcome.bind_eq_failed fails with fails | ⟨files, -, fails⟩
    · exact absurd fails (settled_ne_failed _ _)
    · cases fails

theorem contract_distinct {name : String} {contract : ComponentContract}
    (reads : (workspace.contract name).read disk = .ok contract) : contract.document.Distinct := by
  obtain ⟨bytes, document, -, parses, builds⟩ := Slot.read_eq_ok.mp reads
  have ends := ComponentContract.decode_ends distinct_hereditary
    (Slot.parse_built distinct_built parses)
  have decodes : ComponentContract.decode document = .ok contract :=
    (Schema.build_eq_ok builds).2
  rw [decodes] at ends
  exact ComponentContract.document_distinct ends

theorem component_tells {text : String}
    (h : reply (component workspace disk arguments) = .ok text) :
    ∃ fields, Tells (Quotes workspace disk arguments getComponent) text fields := by
  refine reply_tells h (fun fields answers => ?_) fun reason fails => ?_
  · obtain ⟨name, -, answers⟩ := Outcome.bind_eq_ok answers
    obtain ⟨contract, reads, answers⟩ := Outcome.bind_eq_ok answers
    cases answers
    exact ⟨by simp, passes_finite (contract_distinct reads) contract.document_finite _⟩
  · rcases Outcome.bind_eq_failed fails with fails | ⟨name, named, fails⟩
    · exact absurd fails (nameArgument_ne_failed _ _)
    · rcases Outcome.bind_eq_failed fails with fails | ⟨contract, -, fails⟩
      · exact passes_details getComponent (.contract name) (nameArgument_eq_ok named) fails
      · cases fails

theorem passes_report {report : Report}
    (reports : ∀ holds, Compositional holds → (∀ document, quoted document → holds document) →
      ∀ issue ∈ report.issues, issue.Reports holds) : Passes quoted (reportFields report) := by
  intro holds compositional each
  have issues := Report.issueDocuments_holds compositional.toCumulative
    (reports holds compositional each)
  simp [reportFields, compositional.bool, issues]

theorem usage_tells {text : String} (h : reply (usage workspace disk arguments) = .ok text) :
    ∃ fields, Tells (Quotes workspace disk arguments validateUsage) text fields := by
  refine reply_tells h (fun fields answers => ?_) fun reason fails => ?_
  · obtain ⟨name, -, answers⟩ := Outcome.bind_eq_ok answers
    obtain ⟨contract, -, answers⟩ := Outcome.bind_eq_ok answers
    split at answers
    · cases answers
    · next report checks =>
      cases answers
      refine ⟨by simp [reportFields], (passes_report fun holds compositional each => ?_).cons_text
        _ _⟩
      exact Usage.check_reports compositional.toHereditary (each _ (.inr ⟨rfl, rfl⟩)) checks
  · rcases Outcome.bind_eq_failed fails with fails | ⟨name, named, fails⟩
    · exact absurd fails (nameArgument_ne_failed _ _)
    · rcases Outcome.bind_eq_failed fails with fails | ⟨contract, -, fails⟩
      · exact passes_details validateUsage (.contract name) (nameArgument_eq_ok named) fails
      · split at fails <;> cases fails

theorem withMember_eq_ok {α : Type} [Vocabulary α] {name : String} {found : Json}
    {next : α → Except Abort String} {text : String} (h : withMember α name found next = .ok text) :
    badArgument α name found = .ok text ∨
      ∃ value, found = .string (Vocabulary.word value) ∧ next value = .ok text := by
  unfold withMember at h
  split at h
  · next word =>
    split at h
    · next value known =>
      obtain ⟨string, isString, member⟩ := Option.bind_eq_some_iff.mp known
      have same : Vocabulary.word value = string := by simpa using List.find?_some member
      exact .inr ⟨value, by rw [same, ← Text.string?_eq_some_iff.mp isString], h⟩
    · exact .inl h
  · exact .inl h

theorem tokens_tells {platform : Platform} {theme : Theme} {format : ExportFormat}
    (platformNamed : argument arguments "platform" = .string (Vocabulary.word platform))
    (themeNamed : argument arguments "theme" = .string (Vocabulary.word theme)) {text : String}
    (h : reply (tokens workspace disk platform theme format) = .ok text) :
    ∃ fields, Tells (Quotes workspace disk arguments getTokens) text fields := by
  refine reply_tells h (fun fields answers => ?_) fun reason fails => ?_
  · obtain ⟨compiled, compiles, answers⟩ := Outcome.bind_eq_ok answers
    have document : Passes (Quotes workspace disk arguments getTokens)
        [("tokens", compiled.document)] := passes_finite (Export.document_distinct compiled)
      (Workspace.compile_exportable compiles).document_finite _
    have head := ((document.cons_text "format" (Vocabulary.word format)).cons_text "theme"
      (Vocabulary.word theme)).cons_text "platform" (Vocabulary.word platform)
    split at answers
    · cases answers
      exact ⟨by simp, head⟩
    · split at answers
      · cases answers
        exact ⟨by simp, head.append (passes_nil.cons_text _ _)⟩
      · cases answers
  · rcases Outcome.bind_eq_failed fails with fails | ⟨compiled, -, fails⟩
    · rcases Workspace.compile_failed_cases fails with ⟨location, mem, fails⟩ | ⟨name, ref, rfl⟩
      · refine passes_details getTokens location.address ?_ fails
        simp only [List.mem_cons, List.not_mem_nil, or_false] at mem
        rcases mem with rfl | rfl | rfl
        · trivial
        · exact themeNamed
        · exact platformNamed
      · exact passes_finite
          (.object _ (by simp [unknownRef]) (by simp [unknownRef, Distinct.string]))
          (.object _ (by simp [unknownRef, Finite.string])) _
    · split at fails
      · cases fails
      · split at fails <;> cases fails

theorem tokensAnswer_tells {text : String} (h : tokensAnswer workspace disk arguments = .ok text) :
    ∃ fields, Tells (Quotes workspace disk arguments getTokens) text fields := by
  rcases withMember_eq_ok h with bad | ⟨platform, platformNamed, h⟩
  · exact badArgument_tells bad
  rcases withMember_eq_ok h with bad | ⟨theme, themeNamed, h⟩
  · exact badArgument_tells bad
  rcases withMember_eq_ok h with bad | ⟨format, -, h⟩
  · exact badArgument_tells bad
  exact tokens_tells platformNamed themeNamed h

theorem validate_tells {text : String}
    (h : reply ((Outcome.ofExcept (workspace.validate disk)).bind fun report =>
      .ok (reportFields report)) = .ok text) :
    ∃ fields, Tells (Quotes workspace disk arguments validateWorkspace) text fields := by
  refine reply_tells h (fun fields answers => ?_) fun reason fails => ?_
  · obtain ⟨report, validates, answers⟩ := Outcome.bind_eq_ok answers
    cases answers
    refine ⟨by simp [reportFields], passes_report fun holds compositional each => ?_⟩
    refine Workspace.validate_reports compositional.toHereditary (fun location failure fails => ?_)
      (Outcome.ofExcept_eq_ok.mp validates)
    exact Workspace.details_of_failed compositional.toCumulative
      (fun line column _ => ⟨compositional.int line, compositional.int column⟩)
      (fun document rejects => each document (.inl ⟨_, trivial, rejects⟩)) fails
  · rcases Outcome.bind_eq_failed fails with fails | ⟨report, -, fails⟩
    · cases validates : workspace.validate disk <;> simp [validates, Outcome.ofExcept] at fails
    · cases fails

/-- The answer of a tool that does not stop. -/
theorem body_tells {tool : Tool} {text : String}
    (h : tool.body workspace disk arguments = .ok text) :
    ∃ fields, Tells (tool.Quotes workspace disk arguments) text fields := by
  cases tool with
  | listComponents => exact components_tells h
  | getComponent => exact component_tells h
  | validateUsage => exact usage_tells h
  | getTokens => exact tokensAnswer_tells h
  | listTokenFiles => exact tokenFiles_tells h
  | validateWorkspace => exact validate_tells h

end

/-! ## Answers -/

/-- A text that tells an object is read as one with the same status, and is a JSON text iff the
numbers in it are finite. -/
theorem Tells.reads {text : String} {fields : Fields}
    (distinct : ∀ document, quoted document → document.Distinct)
    (tells : Tells quoted text fields) : ∃ found : Fields,
    Json.read true text.toList = .ok (.object found) ∧
      (found.get? "status" = some (.string "success") ∨
        found.get? "status" = some (.string "error")) ∧
      (IsJsonText text.toList ↔ (Json.object found).Finite) ∧
      ((Json.object found).Finite ↔ (Json.object fields).Finite) := by
  have whole : (Json.object fields).Distinct :=
    .object _ tells.names (tells.passes _ distinct_compositional distinct)
  have reads := Readable.read_text ⟨whole, tells.writable⟩
  have finite := @joined_finite (.object fields)
  rw [joined_object] at reads finite
  refine ⟨_, tells.text ▸ reads, ?_, ?_, finite⟩
  · exact tells.status.imp (get?_joined_eq_some (isJoined_string _))
      (get?_joined_eq_some (isJoined_string _))
  · rw [tells.text, Json.text, String.toList_ofList]
    exact (isJsonText_render _ _).trans finite.symm

/-- If the arguments that a tool writes into its log can be written, its call answers with the text
of an object whose status is success or error. The text is a JSON text iff the numbers in the object
are finite, and so it is whenever the documents from which it quotes are finite. -/
theorem call_answers (workspace : Workspace) (disk : Disk) (arguments : Fields) (tool : Tool)
    (distinct : (Json.object arguments).Distinct)
    (writable : ∀ document ∈ tool.logged arguments, document.unwritable? false = none) :
    ∃ (text : String) (fields : Fields), tool.call workspace disk arguments = .ok text ∧
      Json.read true text.toList = .ok (.object fields) ∧
      (fields.get? "status" = some (.string "success") ∨
        fields.get? "status" = some (.string "error")) ∧
      (IsJsonText text.toList ↔ (Json.object fields).Finite) ∧
      ((∀ document, tool.Quotes workspace disk arguments document → document.Finite) →
        IsJsonText text.toList) := by
  have distinctQuotes : ∀ document, tool.Quotes workspace disk arguments document →
      document.Distinct := by
    rintro document (⟨address, -, slot, -, rejects⟩ | ⟨-, rfl⟩)
    · exact rejects.built distinct_built
    · unfold argument
      cases found : arguments.get? "props" with
      | none => exact .null
      | some props => exact distinct.field found
  obtain ⟨text, fields, calls, tells⟩ : ∃ text fields,
      tool.call workspace disk arguments = .ok text ∧
        Tells (tool.Quotes workspace disk arguments) text fields := by
    unfold call
    split
    · next text answers =>
      obtain ⟨fields, tells⟩ := body_tells answers
      exact ⟨text, fields, rfl, tells⟩
    · next abort stops =>
      have short : ((tool.logged arguments).any
          fun argument => (argument.unwritable? false).isSome) = false := by
        rw [List.any_eq_false]
        intro document mem
        simp [writable document mem]
      obtain ⟨fields, tells⟩ := unexpected_tells abort.message
      exact ⟨_, fields, by rw [if_neg (by simp [short])], tells⟩
  obtain ⟨found, reads, status, isJson, same⟩ := tells.reads distinctQuotes
  refine ⟨text, found, calls, reads, status, isJson, fun finite => isJson.mpr (same.mpr ?_)⟩
  exact .object _ (tells.passes _ finite_compositional finite)

/-- A disk with a contract whose one prop is a text. -/
def labelDisk : Disk := ⟨[("library", .directory [("contracts", .directory [("Button.contract.json",
  .file (Slot.bytes (.object [("name", .string "Button"),
    ("platformTargets", .array [.string "web"]),
    ("props", .object [("label", .object [("type", .string "string")])])])))])])]⟩

/-- A number in place of the text. -/
def labelUsage (label : Number) : Fields :=
  [("component", .string "Button"), ("props", .object [("label", .number label)])]

theorem call_answers_seven :
    (Json.object (labelUsage (.int 7))).Distinct ∧
    (∀ document ∈ validateUsage.logged (labelUsage (.int 7)), document.unwritable? false = none) ∧
    (∀ document, validateUsage.Quotes ⟨.ofText "library"⟩ labelDisk (labelUsage (.int 7)) document →
      document.Finite) ∧
    ∃ text, validateUsage.call ⟨.ofText "library"⟩ labelDisk (labelUsage (.int 7)) = .ok text ∧
      IsJsonText text.toList := by
  have distinct : (Json.object (labelUsage (.int 7))).Distinct := by decide
  have writable : ∀ document ∈ validateUsage.logged (labelUsage (.int 7)),
      document.unwritable? false = none := by decide
  have finite : ∀ document,
      validateUsage.Quotes ⟨.ofText "library"⟩ labelDisk (labelUsage (.int 7)) document →
        document.Finite := by
    rintro document (⟨address, reads, slot, found, rejects⟩ | ⟨-, rfl⟩)
    · cases address with
      | contract name =>
        have named : Json.string "Button" = .string name := reads
        obtain rfl := Text.ofString_inj.mp (Json.string.inj named)
        cases found
        have accepted : (Slot.read (Workspace.contract ⟨.ofText "library"⟩ "Button")
            labelDisk).isOk = true := by decide +kernel
        exact Bool.noConfusion (accepted.symm.trans rejects.not_isOk)
      | _ => exact reads.elim
    · exact .object _ (by simp [Finite.int])
  obtain ⟨text, fields, calls, -, -, -, isText⟩ :=
    call_answers ⟨.ofText "library"⟩ labelDisk _ validateUsage distinct writable
  exact ⟨distinct, writable, finite, text, calls, isText finite⟩

/-- An infinite number in its place is quoted as a word. -/
theorem call_answers_infinite :
    ∃ text, validateUsage.call ⟨.ofText "library"⟩ labelDisk
        (labelUsage (.float (.infinity false))) = .ok text ∧ ¬ IsJsonText text.toList := by
  refine ⟨"\x7b\"status\": \"success\", \"component\": \"Button\", \"valid\": false, \"errors\": " ++
    "[\x7b\"path\": \"/label\", \"message\": \"Expected string, got number\", " ++
    "\"code\": \"type_mismatch\", \"value\": Infinity\x7d]\x7d", by decide +kernel, fun isText => ?_⟩
  exact absurd isText.bare (by decide +kernel)

end Tool
end DesignSystem
