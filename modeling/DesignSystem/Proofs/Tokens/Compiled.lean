import DesignSystem.Proofs.Json.Readable
import DesignSystem.Proofs.Tokens.Export
import DesignSystem.Proofs.Tokens.Safety
import DesignSystem.Proofs.Workspace.Rejected

/-! # Values of compiled tokens

Rules either keep a value or make a text of a number. So the other values of compiled tokens are
values of core tokens.

* `compile_values`: where the values of compiled tokens come from.
* `CompiledTokens.Exportable`: tokens that every format writes.
* `Workspace.compile_exportable`: the compiled tokens of a workspace are such tokens.
* `Workspace.compile_failed_cases`: how compiling fails.
-/

namespace DesignSystem
set_option autoImplicit false

theorem withUnit_eq_ok {number : Number} {unit : String} {value : TokenValue}
    (h : withUnit number unit = .ok value) : ∃ chars, value = .text (.ofChars chars) := by
  obtain ⟨literal, -, h⟩ := bind_eq_ok h
  cases h
  exact ⟨_, rfl⟩

theorem TokenValue.transformed_eq_ok {value result : TokenValue} {rule : Option PlatformRule}
    (h : value.transformed rule = .ok result) :
    result = value ∨ ∃ chars, result = .text (.ofChars chars) := by
  unfold transformed at h
  split at h
  · unfold Number.transformed at h
    split at h
    · exact .inr (withUnit_eq_ok h)
    · obtain ⟨quotient, -, h⟩ := bind_eq_ok h
      exact .inr (withUnit_eq_ok h)
    · cases h
      exact .inl rfl
    · cases h
      exact .inl rfl
  · cases h
    exact .inl rfl

theorem compileEntries_origin {α : Type} {value : String → α → Outcome TokenValue}
    {entries : List (String × α)} {compiled : List (String × TokenValue)}
    (h : compileEntries value entries = .ok compiled) :
    ∀ entry ∈ compiled, ∃ source ∈ entries, value source.1 source.2 = .ok entry.2 := by
  induction entries generalizing compiled with
  | nil =>
    cases h
    simp
  | cons source entries ih =>
    obtain ⟨first, compiles, h⟩ := Outcome.bind_eq_ok h
    obtain ⟨others, rest, h⟩ := Outcome.bind_eq_ok h
    cases h
    refine List.forall_mem_cons.mpr ⟨⟨source, List.mem_cons_self, compiles⟩, fun entry mem => ?_⟩
    obtain ⟨other, listed, here⟩ := ih rest entry mem
    exact ⟨other, List.mem_cons_of_mem _ listed, here⟩

theorem compile_values {core : CoreTokens} {semantic : SemanticTokens} {platform : PlatformRules}
    {compiled : CompiledTokens} (h : compile core semantic platform = .ok compiled) :
    ∀ entry ∈ compiled.entries, (∃ token ∈ core.tokens.entries, entry.2 = token.2.value) ∨
      ∃ chars, entry.2 = .text (.ofChars chars) := by
  obtain ⟨entries, compiles, h⟩ := Outcome.bind_eq_ok h
  cases h
  intro entry mem
  obtain ⟨source, -, here⟩ := compileEntries_origin compiles entry (mem_collect mem)
  unfold compileToken at here
  split at here
  · cases here
  · next found resolves =>
    split at here
    · next value transforms =>
      cases here
      obtain ⟨name, -, listed⟩ := CoreTokens.named?_eq_some.mp resolves
      exact (TokenValue.transformed_eq_ok transforms).imp_left fun same => ⟨_, listed, same⟩
    · cases here

/-- Tokens with finite numbers that do not have too many digits, and with joined texts. -/
structure CompiledTokens.Exportable (tokens : CompiledTokens) : Prop where
  finite : ∀ token ∈ tokens.entries, token.2.IsFinite
  short : ∀ token ∈ tokens.entries, token.2.isTooLong = false
  isJoined : ∀ token ∈ tokens.entries, token.2.document.IsJoined

theorem CompiledTokens.Exportable.document_finite {tokens : CompiledTokens}
    (exportable : tokens.Exportable) : tokens.document.Finite :=
  (Json.unwritable?_eq_none_iff.mp
    ((Export.unwritable?_document exportable.finite true).mpr exportable.short)).2

theorem CompiledTokens.Exportable.document_readable {tokens : CompiledTokens}
    (exportable : tokens.Exportable) : tokens.document.Readable :=
  ⟨Export.document_distinct tokens,
    (Export.unwritable?_document exportable.finite false).mpr exportable.short⟩

theorem CompiledTokens.Exportable.document_isJoined {tokens : CompiledTokens}
    (exportable : tokens.Exportable) : tokens.document.IsJoined := by
  rw [CompiledTokens.document, Encoded.dict, Json.IsJoined, Json.texts, Json.forall_fieldTexts,
    List.forall_mem_map]
  exact exportable.isJoined

theorem Export.Row.rendering_isJoined {row : Row} {token : String × TokenValue}
    (isJoined : token.2.document.IsJoined) (writes : row.Writes token) :
    row.rendering.IsJoined := by
  obtain ⟨-, value⟩ := writes
  obtain ⟨name, text | n⟩ := token
  · rw [value.1]
    exact isJoined text (by simp [TokenValue.document, Json.texts])
  · obtain ⟨numeral, rendered, -⟩ := value.1
    rw [rendered]
    exact Text.isJoined_ofChars numeral

/-- Declarations begin and end with characters, so that no two surrogates meet between them. -/
theorem Export.unpaired_declarations {rows : List Row}
    (each : ∀ row ∈ rows, row.rendering.IsJoined) {closing : List Char} :
    CodePoint.Unpaired
      (rows.flatMap (·.declaration ++ [.char '\n']) ++ closing.map CodePoint.char) := by
  induction rows with
  | nil => exact CodePoint.unpaired_of_isChar (by simp)
  | cons row rows ih =>
    rw [List.forall_mem_cons] at each
    have rest := CodePoint.unpaired_char_cons (c := '\n') (ih each.2)
    have value := CodePoint.unpaired_append_char each.1
      (CodePoint.unpaired_char_cons (c := ';') rest)
    have line := CodePoint.unpaired_chars_append
      ("  ".toList ++ cssName row.name ++ ": ".toList) value
    simpa [Row.declaration] using line

/-- Such tokens are exported in every format. -/
theorem CompiledTokens.Exportable.exports {tokens : CompiledTokens}
    (exportable : tokens.Exportable) (format : ExportFormat) :
    ∃ text, exportTokens format tokens.scalars = .ok text := by
  have finite := exportable.finite
  have short := exportable.short
  cases format with
  | json =>
    rw [exportTokens, Export.json, Export.scalars_document, Export.written,
      exportable.document_readable.2]
    exact ⟨_, rfl⟩
  | css =>
    have lines := (Export.lines_scalars (·.declaration ++ [.char '\n']) finite
      Export.cssLine_eq).2 short
    rw [exportTokens, Export.css, lines]
    exact ⟨_, rfl⟩
  | ts =>
    have lines := (Export.lines_scalars (·.field ++ ",\n".toList) finite Export.tsLine_eq).2 short
    rw [exportTokens, Export.ts, lines]
    exact ⟨_, rfl⟩

/-- The texts of such tokens in all formats are joined. -/
theorem CompiledTokens.Exportable.text_isJoined {tokens : CompiledTokens}
    (exportable : tokens.Exportable) {format : ExportFormat} {text : Text}
    (exports : exportTokens format tokens.scalars = .ok text) : text.IsJoined := by
  cases format with
  | json =>
    obtain ⟨chars, -, rfl⟩ := map_eq_ok exports
    exact Text.isJoined_ofChars chars
  | ts =>
    obtain ⟨chars, -, rfl⟩ := map_eq_ok exports
    exact Text.isJoined_ofChars chars
  | css =>
    have lines := (Export.lines_scalars (·.declaration ++ [.char '\n']) exportable.finite
      Export.cssLine_eq).2 exportable.short
    rw [exportTokens, Export.css, lines] at exports
    cases exports
    have each : ∀ row ∈ Export.rows tokens, row.rendering.IsJoined := by
      rw [Export.rows, List.forall_mem_map, Export.forall_scalars]
      intro token mem
      exact Export.Row.rendering_isJoined (exportable.isJoined token mem)
        (Export.Row.of_writes token.1 (exportable.finite token mem) (exportable.short token mem))
    rw [Text.IsJoined, List.append_assoc]
    exact CodePoint.unpaired_chars_append _ (Export.unpaired_declarations each)

/-! ## Failures -/

theorem compileEntries_failed {α : Type} {value : String → α → Outcome TokenValue}
    {entries : List (String × α)} {reason : Failure}
    (h : compileEntries value entries = .failed reason) :
    ∃ source ∈ entries, value source.1 source.2 = .failed reason := by
  induction entries with
  | nil => cases h
  | cons source entries ih =>
    rcases Outcome.bind_eq_failed h with fails | ⟨first, -, h⟩
    · exact ⟨source, List.mem_cons_self, fails⟩
    · rcases Outcome.bind_eq_failed h with fails | ⟨others, -, h⟩
      · obtain ⟨other, listed, here⟩ := ih fails
        exact ⟨other, List.mem_cons_of_mem _ listed, here⟩
      · cases h

/-- Compiling fails for refs to no core token only. -/
theorem compile_failed {core : CoreTokens} {semantic : SemanticTokens} {platform : PlatformRules}
    {reason : Failure} (h : compile core semantic platform = .failed reason) :
    ∃ name ref, reason = unknownRef name ref := by
  rcases Outcome.bind_eq_failed h with fails | ⟨entries, -, h⟩
  · obtain ⟨source, -, here⟩ := compileEntries_failed fails
    unfold compileToken at here
    split at here
    · cases here
      exact ⟨_, _, rfl⟩
    · split at here <;> cases here
  · cases h

/-! ## Workspaces -/

/-- The values of core tokens that are read from a file are finite numbers, which do not have too
many digits, or joined texts. -/
theorem CoreTokens.values_of_read {slot : Slot CoreTokens} (kind : slot.schema = .core)
    {disk : Disk} {core : CoreTokens} (reads : slot.read disk = .ok core) :
    ∀ entry ∈ core.tokens.entries, entry.2.value.IsFinite ∧ entry.2.value.isTooLong = false ∧
      entry.2.value.document.IsJoined := by
  obtain ⟨bytes, document, -, parses, builds⟩ := Slot.read_eq_ok.mp reads
  rw [kind] at builds
  obtain ⟨accepted, decodes⟩ := Schema.build_eq_ok builds
  have shape := (Check.coreTokens_decides document).mp (Schema.accepts_guarded accepted)
  have joined := CoreTokens.values_of_decode Json.isJoined_inherited
    (Slot.parse_built Json.isJoined_built parses) decodes shape
  have writable := CoreTokens.values_of_decode (Json.writable_hereditary false).toInherited
    (Slot.parse_built Json.writable_built parses) decodes shape
  intro entry mem
  obtain ⟨write, range⟩ := writable entry mem
  have finite : entry.2.value.IsFinite := by
    cases value : entry.2.value with
    | text text => trivial
    | number n =>
      cases n with
      | int n => trivial
      | float x => exact range _ value
  exact ⟨finite, (TokenValue.unwritable?_eq_none finite false).mp write, (joined entry mem).1⟩

theorem Workspace.compile_exportable {workspace : Workspace} {disk : Disk} {platform : Platform}
    {theme : Theme} {compiled : CompiledTokens}
    (h : workspace.compile disk platform theme = .ok compiled) : compiled.Exportable := by
  obtain ⟨core, reads, h⟩ := Outcome.bind_eq_ok h
  obtain ⟨semantic, -, h⟩ := Outcome.bind_eq_ok h
  obtain ⟨rules, -, compiles⟩ := Outcome.bind_eq_ok h
  have each : ∀ token ∈ compiled.entries, token.2.IsFinite ∧ token.2.isTooLong = false ∧
      token.2.document.IsJoined := by
    intro token mem
    rcases compile_values compiles token mem with ⟨source, listed, same⟩ | ⟨chars, same⟩
    · exact same ▸ CoreTokens.values_of_read rfl reads source listed
    · have joined : (TokenValue.text (.ofChars chars)).document.IsJoined := by
        simpa [TokenValue.document, Json.IsJoined, Json.texts] using Text.isJoined_ofChars chars
      rw [same]
      exact ⟨trivial, rfl, joined⟩
  exact ⟨fun token mem => (each token mem).1, fun token mem => (each token mem).2.1,
    fun token mem => (each token mem).2.2⟩

/-- Compiling fails where a document cannot be read, or for a ref to no core token. -/
theorem Workspace.compile_failed_cases {workspace : Workspace} {disk : Disk} {platform : Platform}
    {theme : Theme} {failure : Failure}
    (h : workspace.compile disk platform theme = .failed failure) :
    (∃ location ∈ [Location.core, .semantic theme, .platform platform],
      workspace.read disk location.address = .failed failure) ∨
    ∃ name ref, failure = unknownRef name ref := by
  rcases Outcome.bind_eq_failed h with fails | ⟨core, -, h⟩
  · exact .inl ⟨.core, by simp, fails⟩
  rcases Outcome.bind_eq_failed h with fails | ⟨semantic, -, h⟩
  · exact .inl ⟨.semantic theme, by simp, by cases theme <;> exact fails⟩
  rcases Outcome.bind_eq_failed h with fails | ⟨rules, -, h⟩
  · exact .inl ⟨.platform platform, by simp, by cases platform <;> exact fails⟩
  exact .inr (compile_failed h)

end DesignSystem
