import DesignSystem.Proofs.Json.RoundTrip
import DesignSystem.Proofs.Number.Denoted
import DesignSystem.Tokens.Export

/-! # What exported tokens say

The three formats write the same literals for the same tokens.

* `Export.Row`: the name of a token with its rendering and its literal.
* `Export.Row.Writes`: a row for a token.
* `exportTokens_json_reads`: the JSON of a token map is read as the map.
* `exportTokens_rows`: all three texts of a token map are made of one list of rows.
-/

namespace DesignSystem
set_option autoImplicit false

namespace TokenValue

/-- Whether a value is an integer with more digits than are written. -/
def isTooLong : TokenValue → Bool
  | number (.int n) => maxDigits < (digitsOf n.natAbs).length
  | _ => false

/-- A value that is neither an infinity nor NaN. -/
def IsFinite : TokenValue → Prop
  | number (.float x) => x.isFinite = true
  | _ => True

instance : DecidablePred IsFinite
  | number (.float x) => inferInstanceAs (Decidable (x.isFinite = true))
  | number (.int _) | text _ => isTrue trivial

/-- A value that is no text with surrogates on their own. -/
def IsUnicode : TokenValue → Prop
  | text value => value.isUnicode = true
  | number _ => True

instance : DecidablePred IsUnicode
  | text value => inferInstanceAs (Decidable (value.isUnicode = true))
  | number _ => isTrue trivial

theorem IsUnicode.document {value : TokenValue} (unicode : value.IsUnicode) :
    value.document.Unicode := by
  cases value with
  | text text => exact Json.unicode_string.mpr unicode
  | number n => simp [TokenValue.document, Json.Unicode, Json.texts]

theorem unwritable?_eq_none {value : TokenValue} (finite : value.IsFinite) (finiteOnly : Bool) :
    value.document.unwritable? finiteOnly = none ↔ value.isTooLong = false := by
  cases value with
  | text text => simp [document, Json.unwritable?, isTooLong]
  | number n =>
    rw [document, Json.unwritable?]
    cases n with
    | int n => simp [Json.unwritableNumber?, isTooLong]
    | float x =>
      have finite : x.isFinite = true := finite
      simp [Json.unwritableNumber?, isTooLong, finite]

theorem document_injective {a b : TokenValue} (h : a.document = b.document) : a = b := by
  cases a <;> cases b <;> simp_all [document]

theorem scalar_document (value : TokenValue) : value.scalar.document = value.document := by
  cases value <;> rfl

end TokenValue

namespace Export

/-! ## Rows -/

/-- The name of a token, its rendering in CSS, and its literal in the other formats. -/
structure Row where
  name : String
  rendering : Text
  literal : List Char

namespace Row

/-- A row for a token. A text is rendered as it is; a number has its literal in documents and is
rendered by a numeral that denotes it. -/
def Writes (row : Row) (token : String × TokenValue) : Prop :=
  row.name = token.1 ∧
    match token.2 with
    | .text text => row.rendering = text ∧ row.literal = Json.literal true text
    | .number n => (∃ numeral, row.rendering = .ofChars numeral ∧ Json.Denotes numeral n) ∧
        row.literal = Json.numberLiteral n ∧ Json.readNumber row.literal = .ok (.number n, [])

/-- The row of a token that has one. -/
def of (token : String × Scalar) : Row :=
  ⟨token.1, token.2.cssValue.toOption.getD (.ofChars []), token.2.document.render .asciiLine 0⟩

/-- The line of a custom property. -/
def declaration (row : Row) : List CodePoint :=
  ("  ".toList ++ cssName row.name ++ ": ".toList).map .char ++ row.rendering.points ++ [.char ';']

/-- The line of a field of an object. -/
def field (row : Row) : List Char :=
  "  ".toList ++ Json.literal true row.name ++ ": ".toList ++ row.literal

end Row

/-- The text of a style sheet by its lines. -/
def cssLines (rows : List Row) : List (List CodePoint) :=
  ":root \x7b".toList.map .char :: (rows.map Row.declaration ++ ["\x7d".toList.map .char])

def jsonText (rows : List Row) : List Char :=
  if rows.isEmpty then "\x7b\x7d\n".toList
  else "\x7b\n".toList ++ ",\n".toList.intercalate (rows.map Row.field) ++ "\n\x7d\n".toList

def tsText (rows : List Row) : List Char :=
  "export const tokens = \x7b\n".toList ++ rows.flatMap (fun row => row.field ++ ",\n".toList) ++
    "\x7d as const;\n\nexport type TokenName = keyof typeof tokens;\n".toList

/-! ## Values -/

section
variable {value : TokenValue}

theorem cssValue_eq_ok (finite : value.IsFinite) (short : value.isTooLong = false) :
    ∃ text, value.scalar.cssValue = .ok text ∧
      ∀ n, value = .number n → ∃ numeral, text = .ofChars numeral ∧ Json.Denotes numeral n := by
  have writable := (TokenValue.unwritable?_eq_none finite true).mpr short
  cases value with
  | text text => exact ⟨text, rfl, fun n e => nomatch e⟩
  | number n =>
    obtain ⟨numeral, renders, denotes⟩ := Number.rendered_denotes writable
    refine ⟨.ofChars numeral, ?_, fun m e => ?_⟩
    · rw [TokenValue.scalar, Scalar.cssValue, renders]
      rfl
    · cases e
      exact ⟨numeral, rfl, denotes⟩

theorem cssValue_eq_error (finite : value.IsFinite) (long : value.isTooLong = true) :
    value.scalar.cssValue = .error .numeralTooLong := by
  cases value with
  | text text => cases long
  | number n =>
    cases n with
    | int n =>
      have digits : maxDigits < (digitsOf n.natAbs).length := of_decide_eq_true long
      simp [TokenValue.scalar, Scalar.cssValue, Number.rendered, Number.writtenNumeral, digits]
    | float x => cases long

theorem written_value (finite : value.IsFinite) (style : Json.Style) :
    written style value.scalar.document =
      if value.isTooLong then .error .numeralTooLong
      else .ok (value.document.render style 0) := by
  have writable := TokenValue.unwritable?_eq_none finite false
  rw [written, TokenValue.scalar_document]
  cases long : value.isTooLong with
  | false => rw [writable.mpr long]; rfl
  | true =>
    cases found : value.document.unwritable? false with
    | none => rw [writable.mp found] at long; cases long
    | some cause => rfl

theorem Row.of_writes (name : String) (finite : value.IsFinite)
    (short : value.isTooLong = false) : (Row.of (name, value.scalar)).Writes (name, value) := by
  obtain ⟨text, renders, denotes⟩ := cssValue_eq_ok finite short
  have writable := (TokenValue.unwritable?_eq_none finite true).mpr short
  refine ⟨rfl, ?_⟩
  cases value with
  | text text => exact ⟨rfl, Json.render_string .asciiLine 0 text⟩
  | number n =>
    have read := Json.readNumber_literal writable Json.endsNumeral_nil
    rw [List.append_nil] at read
    have rendering : (Row.of (name, (TokenValue.number n).scalar)).rendering = text := by
      simp [Row.of, renders, Except.toOption]
    have literal : (Row.of (name, (TokenValue.number n).scalar)).literal = Json.numberLiteral n :=
      Json.render_number .asciiLine 0 n
    exact ⟨rendering ▸ denotes n rfl, literal, literal ▸ read⟩

end

/-! ## Lines -/

section
variable {α : Type} {line : String → Scalar → Except NumberFault (List α)}
  {tokens : List (String × Scalar)}

theorem lines_eq_ok {text : String × Scalar → List α}
    (each : ∀ token ∈ tokens, line token.1 token.2 = .ok (text token)) :
    lines line tokens = .ok (tokens.flatMap text) := by
  induction tokens with
  | nil => rfl
  | cons token tokens ih =>
    rw [List.forall_mem_cons] at each
    rw [lines, each.1, ih each.2]
    rfl

/-- Lines of which some stop for one fault, and none for another, stop for that fault. -/
theorem lines_eq_error {fault : NumberFault}
    (each : ∀ token ∈ tokens,
      line token.1 token.2 = .error fault ∨ ∃ text, line token.1 token.2 = .ok text)
    (some : ∃ token ∈ tokens, line token.1 token.2 = .error fault) :
    lines line tokens = .error fault := by
  induction tokens with
  | nil =>
    obtain ⟨token, mem, -⟩ := some
    cases mem
  | cons token tokens ih =>
    rw [List.forall_mem_cons] at each
    rw [lines]
    rcases each.1 with stops | ⟨text, writes⟩
    · rw [stops]
      rfl
    · have later : ∃ other ∈ tokens, line other.1 other.2 = .error fault := by
        obtain ⟨other, mem, stops⟩ := some
        rcases List.mem_cons.mp mem with rfl | mem
        · cases writes.symm.trans stops
        · exact ⟨other, mem, stops⟩
      rw [writes, ih each.2 later]
      rfl

end

/-- A text of lines is split at their ends. -/
theorem splitOn_lines {α : Type} [DecidableEq α] {newline : α} {lines : List (List α)}
    (unbroken : ∀ line ∈ lines, newline ∉ line) :
    (lines.flatMap (· ++ [newline])).splitOn newline = lines ++ [[]] := by
  induction lines with
  | nil => rfl
  | cons line lines ih =>
    rw [List.forall_mem_cons] at unbroken
    rw [List.flatMap_cons, List.append_assoc, List.singleton_append,
      List.splitOn_append_cons_of_beq _ _ (beq_self_eq_true newline),
      List.splitOn_eq_singleton unbroken.1,
      ih unbroken.2, List.singleton_append, List.cons_append]

/-! ## Texts -/

section
variable {tokens : CompiledTokens}

/-- The rows of tokens that have them. -/
def rows (tokens : CompiledTokens) : List Row := tokens.scalars.map Row.of

theorem forall_scalars {holds : String × Scalar → Prop} :
    (∀ token ∈ tokens.scalars, holds token) ↔
      ∀ token ∈ tokens.entries, holds (token.1, token.2.scalar) :=
  List.forall_mem_map

theorem rows_writes (finite : ∀ token ∈ tokens.entries, token.2.IsFinite)
    (short : ∀ token ∈ tokens.entries, token.2.isTooLong = false) :
    List.Forall₂ Row.Writes (rows tokens) tokens.entries := by
  rw [rows, CompiledTokens.scalars, List.map_map, List.forall₂_map_left_iff, List.forall₂_same]
  exact fun token mem => Row.of_writes token.1 (finite token mem) (short token mem)

theorem cssLine_eq (token : String × TokenValue) (finite : token.2.IsFinite) :
    cssLine token.1 token.2.scalar =
      if token.2.isTooLong then .error .numeralTooLong
      else .ok ((Row.of (token.1, token.2.scalar)).declaration ++ [.char '\n']) := by
  cases long : token.2.isTooLong with
  | true =>
    rw [cssLine, cssValue_eq_error finite long]
    rfl
  | false =>
    obtain ⟨text, renders, -⟩ := cssValue_eq_ok finite long
    simp [cssLine, renders, Row.declaration, Row.of, Except.toOption, bind, Except.bind, pure,
      Except.pure]

theorem tsLine_eq (token : String × TokenValue) (finite : token.2.IsFinite) :
    tsLine token.1 token.2.scalar =
      if token.2.isTooLong then .error .numeralTooLong
      else .ok ((Row.of (token.1, token.2.scalar)).field ++ ",\n".toList) := by
  rw [tsLine, written_value finite]
  cases token.2.isTooLong with
  | true => rfl
  | false => simp [Row.field, Row.of, TokenValue.scalar_document, bind, Except.bind, pure,
      Except.pure]

/-- The lines of a format stop if a number is too long, and are made of the rows otherwise. -/
theorem lines_scalars {α : Type} {line : String → Scalar → Except NumberFault (List α)}
    (text : Row → List α) (finite : ∀ token ∈ tokens.entries, token.2.IsFinite)
    (each : ∀ token : String × TokenValue, token.2.IsFinite → line token.1 token.2.scalar =
      if token.2.isTooLong then .error .numeralTooLong
      else .ok (text (Row.of (token.1, token.2.scalar)))) :
    ((∃ token ∈ tokens.entries, token.2.isTooLong = true) →
      lines line tokens.scalars = .error .numeralTooLong) ∧
    ((∀ token ∈ tokens.entries, token.2.isTooLong = false) →
      lines line tokens.scalars = .ok ((rows tokens).flatMap text)) := by
  constructor
  · rintro ⟨token, mem, long⟩
    refine lines_eq_error (forall_scalars.mpr fun other listed => ?_)
      ⟨(token.1, token.2.scalar), List.mem_map_of_mem mem, ?_⟩
    · rw [each other (finite other listed)]
      cases other.2.isTooLong with
      | true => exact .inl rfl
      | false => exact .inr ⟨_, rfl⟩
    · rw [each token (finite token mem), if_pos long]
  · intro short
    rw [rows, List.flatMap_map]
    refine lines_eq_ok (forall_scalars.mpr fun token mem => ?_)
    rw [each token (finite token mem), short token mem]
    rfl

/-- Values of tokens have the same text at every depth and in every style of their characters. -/
theorem render_value (value : TokenValue) (depth : ℕ) :
    value.document.render jsonStyle depth = value.document.render .asciiLine 0 := by
  cases value with
  | text text => rw [TokenValue.document, Json.render_string, Json.render_string]; rfl
  | number n => rw [TokenValue.document, Json.render_number, Json.render_number]

theorem renderField_scalar (token : String × TokenValue) :
    [' ', ' '] ++ Json.renderField jsonStyle 1 (token.1, token.2.scalar.document) =
      (Row.of (token.1, token.2.scalar)).field := by
  rw [Json.renderField_eq, TokenValue.scalar_document, render_value, Row.field, Row.of,
    TokenValue.scalar_document]
  simp [jsonStyle]

theorem renderFields_scalars (entries : List (String × TokenValue)) :
    Json.renderFields jsonStyle 1
        (entries.map fun token => (token.1, token.2.scalar.document)) =
      entries.flatMap fun token => ",\n".toList ++ (Row.of (token.1, token.2.scalar)).field := by
  induction entries with
  | nil => exact Json.renderFields_nil jsonStyle 1
  | cons token entries ih =>
    rw [List.map_cons, Json.renderFields_cons, ih, List.flatMap_cons, ← renderField_scalar]
    simp [Json.Style.separator, jsonStyle]

theorem scalars_document (tokens : CompiledTokens) :
    Json.object (tokens.scalars.map fun token => (token.1, token.2.document)) =
      tokens.document := by
  simp [CompiledTokens.scalars, CompiledTokens.document, Encoded.dict,
    TokenValue.scalar_document]

theorem intercalate_cons (separator first : List Char) (rest : List (List Char)) :
    separator.intercalate (first :: rest) = first ++ rest.flatMap (separator ++ ·) := by
  induction rest generalizing first with
  | nil => simp
  | cons next rest ih =>
    rw [List.intercalate_cons_cons, ih, List.flatMap_cons, List.append_assoc, List.append_assoc]

theorem render_document (tokens : CompiledTokens) :
    tokens.document.render jsonStyle 0 ++ ['\n'] = jsonText (rows tokens) := by
  obtain ⟨entries, distinct⟩ := tokens
  rw [← scalars_document, rows, CompiledTokens.scalars, List.map_map, List.map_map]
  cases entries with
  | nil =>
    rw [List.map_nil, Json.render_noFields]
    rfl
  | cons token entries =>
    have first := renderField_scalar token
    rw [jsonText, List.map_cons, List.map_cons, List.map_cons, List.map_map, intercalate_cons,
      List.flatMap_map]
    simp only [Function.comp_apply, ← first]
    rw [Json.render_object]
    have rest := renderFields_scalars entries
    simp only [Function.comp_def] at rest ⊢
    rw [rest]
    simp [Json.Style.edge, jsonStyle]

theorem unwritable?_document (finite : ∀ token ∈ tokens.entries, token.2.IsFinite)
    (finiteOnly : Bool) : tokens.document.unwritable? finiteOnly = none ↔
      ∀ token ∈ tokens.entries, token.2.isTooLong = false := by
  rw [CompiledTokens.document, Encoded.dict, Json.unwritable?, Json.unwritableField?_eq_none,
    List.forall_mem_map]
  exact forall₂_congr fun token mem =>
    TokenValue.unwritable?_eq_none (finite token mem) finiteOnly

theorem document_distinct (tokens : CompiledTokens) : tokens.document.Distinct := by
  refine .object _ ?_ ?_
  · rw [List.map_map]
    exact tokens.distinct
  · rw [List.forall_mem_map]
    intro token _
    cases token.2 with
    | text text => exact .string text
    | number n => exact .number n

theorem document_unicode (unicode : ∀ token ∈ tokens.entries, token.2.IsUnicode) :
    tokens.document.Unicode := by
  rw [CompiledTokens.document, Encoded.dict, Json.unicode_object, List.forall_mem_map]
  exact fun token mem => (unicode token mem).document

theorem document_injective {tokens other : CompiledTokens}
    (same : other.document = tokens.document) : other = tokens := by
  obtain ⟨entries, distinct⟩ := tokens
  obtain ⟨others, distinct'⟩ := other
  have injective : Function.Injective fun token : String × TokenValue =>
      (token.1, token.2.document) := by
    rintro ⟨name, value⟩ ⟨name', value'⟩ h
    obtain ⟨names, documents⟩ := Prod.mk.inj h
    exact Prod.ext names (TokenValue.document_injective documents)
  have entriesSame : others = entries := injective.list_map (Json.object.inj same)
  subst entriesSame
  rfl

/-! ## Line ends -/

theorem newline_not_mem_cssName {name : String} (h : '\n' ∉ name.toList) :
    '\n' ∉ cssName name := by
  simp only [cssName, List.mem_cons, List.mem_map, not_or, not_exists, not_and]
  refine ⟨by decide, by decide, fun c mem e => ?_⟩
  split at e
  · cases e
  · exact h (e ▸ mem)

theorem newline_not_mem_declaration {row : Row} {token : String × TokenValue}
    (writes : row.Writes token) (name : '\n' ∉ token.1.toList)
    (text : ∀ text, token.2 = .text text → .char '\n' ∉ text.points) :
    .char '\n' ∉ row.declaration := by
  obtain ⟨same, value⟩ := writes
  have named : '\n' ∉ cssName row.name := newline_not_mem_cssName (same ▸ name)
  have rendering : .char '\n' ∉ row.rendering.points := by
    obtain ⟨_, _ | n⟩ := token
    · rw [value.1]
      exact text _ rfl
    · obtain ⟨numeral, rendered, denotes⟩ := value.1
      obtain ⟨s, valid, rfl⟩ := denotes.numeral
      rw [rendered, Text.points_ofChars, List.mem_map_of_injective CodePoint.char_injective]
      exact fun mem => absurd (valid.isNumeralChar mem) (by decide)
  simp [Row.declaration, named, rendering]

theorem newline_not_mem_cssLines (finite : ∀ token ∈ tokens.entries, token.2.IsFinite)
    (short : ∀ token ∈ tokens.entries, token.2.isTooLong = false)
    (unbroken : ∀ token ∈ tokens.entries, '\n' ∉ token.1.toList ∧
      ∀ text, token.2 = .text text → .char '\n' ∉ text.points) :
    ∀ line ∈ cssLines (rows tokens), .char '\n' ∉ line := by
  have declarations : ∀ row ∈ rows tokens, .char '\n' ∉ row.declaration := by
    rw [rows, List.forall_mem_map, forall_scalars]
    intro token mem
    obtain ⟨name, text⟩ := unbroken token mem
    exact newline_not_mem_declaration
      (Row.of_writes token.1 (finite token mem) (short token mem)) name text
  intro line mem
  rcases List.mem_cons.mp mem with rfl | mem
  · decide
  · rcases List.mem_append.mp mem with mem | mem
    · obtain ⟨row, listed, rfl⟩ := List.mem_map.mp mem
      exact declarations row listed
    · rw [List.mem_singleton.mp mem]
      decide

end
end Export

/-! ## Exports -/

/-- The JSON of compiled tokens, whose texts are Unicode and whose numbers are finite and not too
long, is read as an object with their names and values in order, which no other tokens have. -/
theorem exportTokens_json_reads (tokens : CompiledTokens)
    (unicode : ∀ token ∈ tokens.entries, token.2.IsUnicode)
    (finite : ∀ token ∈ tokens.entries, token.2.IsFinite)
    (short : ∀ token ∈ tokens.entries, token.2.isTooLong = false) (acceptSpecial : Bool) :
    (∃ text : String, exportTokens .json tokens.scalars = .ok text ∧
      Json.read acceptSpecial text.toList = .ok (.object
        (tokens.entries.map fun token => (token.1, token.2.document)))) ∧
    ∀ other : CompiledTokens, other.document = tokens.document → other = tokens := by
  refine ⟨?_, fun other => Export.document_injective⟩
  have written := (Export.unwritable?_document finite false).mpr short
  have accepted := (Export.unwritable?_document finite (!acceptSpecial)).mpr short
  refine ⟨.ofList (tokens.document.render Export.jsonStyle 0 ++ ['\n']), ?_, ?_⟩
  · rw [exportTokens, Export.json, Export.scalars_document, Export.written, written,
      Text.ofString, String.toList_ofList]
    rfl
  · have spelled := Export.document_unicode unicode
    rw [String.toList_ofList, Json.read_render acceptSpecial Export.jsonStyle
      (Export.document_distinct tokens) (.inl rfl) accepted (by simp [Json.isBlank]),
      spelled.joined_eq_self]
    rfl

/-- Tokens with a text beyond ASCII, an integer, and numbers whose literals differ by format. -/
def mixedTokens : CompiledTokens where
  entries := [("color.ink", .text "#\"é\"😀"), ("size.md", .number (.int 16)),
    ("size.lg", .number (.float (.ofRatio false 24 1))),
    ("ratio", .number (.float (.ofDecimal true 1 (-7))))]
  distinct := by decide

theorem exportTokens_json_reads_mixed :
    (∀ token ∈ mixedTokens.entries, token.2.IsUnicode) ∧
    (∀ token ∈ mixedTokens.entries, token.2.IsFinite) ∧
    (∀ token ∈ mixedTokens.entries, token.2.isTooLong = false) ∧
    ∃ text : String, exportTokens .json mixedTokens.scalars = .ok text ∧
      Json.read true text.toList = .ok (.object
        (mixedTokens.entries.map fun token => (token.1, token.2.document))) := by
  have finite : ∀ token ∈ mixedTokens.entries, token.2.IsFinite := by decide +kernel
  have short : ∀ token ∈ mixedTokens.entries, token.2.isTooLong = false := by decide +kernel
  have unicode : ∀ token ∈ mixedTokens.entries, token.2.IsUnicode := by decide +kernel
  exact ⟨unicode, finite, short,
    (exportTokens_json_reads mixedTokens unicode finite short true).1⟩

/-- Tokens with a number that is too long are exported in no format. -/
theorem exportTokens_eq_error {tokens : CompiledTokens}
    (finite : ∀ token ∈ tokens.entries, token.2.IsFinite)
    (long : ∃ token ∈ tokens.entries, token.2.isTooLong = true) (format : ExportFormat) :
    exportTokens format tokens.scalars = .error .numeralTooLong := by
  have css := Export.lines_scalars (·.declaration ++ [.char '\n']) finite Export.cssLine_eq
  have ts := Export.lines_scalars (·.field ++ ",\n".toList) finite Export.tsLine_eq
  cases format with
  | json =>
    cases written : tokens.document.unwritable? false with
    | none =>
      obtain ⟨token, mem, tooLong⟩ := long
      rw [(Export.unwritable?_document finite false).mp written token mem] at tooLong
      cases tooLong
    | some cause =>
      rw [exportTokens, Export.json, Export.scalars_document, Export.written, written]
      rfl
  | css =>
    rw [exportTokens, Export.css, css.1 long]
    rfl
  | ts =>
    rw [exportTokens, Export.ts, ts.1 long]
    rfl

/-- Compiled tokens without infinities, NaN and line feeds are exported in every format, unless one
of their numbers is too long, or in none. All texts are made of the same rows. -/
theorem exportTokens_rows (tokens : CompiledTokens)
    (finite : ∀ token ∈ tokens.entries, token.2.IsFinite)
    (unbroken : ∀ token ∈ tokens.entries, '\n' ∉ token.1.toList ∧
      ∀ text, token.2 = .text text → .char '\n' ∉ text.points) :
    ((∃ token ∈ tokens.entries, token.2.isTooLong = true) →
      ∀ format, exportTokens format tokens.scalars = .error .numeralTooLong) ∧
    ((∀ token ∈ tokens.entries, token.2.isTooLong = false) →
      ∃ rows, List.Forall₂ Export.Row.Writes rows tokens.entries ∧
        (∃ css, exportTokens .css tokens.scalars = .ok css ∧
          css.points.splitOn (.char '\n') = Export.cssLines rows ++ [[]]) ∧
        exportTokens .json tokens.scalars = .ok (.ofChars (Export.jsonText rows)) ∧
        exportTokens .ts tokens.scalars = .ok (.ofChars (Export.tsText rows))) := by
  have css := Export.lines_scalars (·.declaration ++ [.char '\n']) finite Export.cssLine_eq
  have ts := Export.lines_scalars (·.field ++ ",\n".toList) finite Export.tsLine_eq
  refine ⟨exportTokens_eq_error finite, ?_⟩
  intro short
  have writes := Export.rows_writes finite short
  have written := (Export.unwritable?_document finite false).mpr short
  refine ⟨Export.rows tokens, writes, ⟨_, by rw [exportTokens, Export.css, css.2 short]; rfl, ?_⟩,
    ?_, ?_⟩
  · have lines : ":root \x7b\n".toList.map .char ++
        (Export.rows tokens).flatMap (fun row => row.declaration ++ [.char '\n']) ++
          "\x7d\n".toList.map .char =
            (Export.cssLines (Export.rows tokens)).flatMap (· ++ [.char '\n']) := by
      simp [Export.cssLines, List.flatMap_map]
    rw [lines,
      Export.splitOn_lines (Export.newline_not_mem_cssLines finite short unbroken)]
  · rw [exportTokens, Export.json, Export.scalars_document, Export.written, written]
    exact congrArg (fun text => Except.ok (Text.ofChars text)) (Export.render_document tokens)
  · rw [exportTokens, Export.ts, ts.2 short]
    rfl

/-- A token with one digit more than are written. -/
def longTokens : CompiledTokens where
  entries := [("size", .number (.int ((10 ^ 100) ^ 43)))]
  distinct := by decide

theorem exportTokens_rows_mixed :
    (∀ format, exportTokens format longTokens.scalars = .error .numeralTooLong) ∧
    ∃ rows, List.Forall₂ Export.Row.Writes rows mixedTokens.entries ∧
      (∃ css, exportTokens .css mixedTokens.scalars = .ok css ∧
        css.points.splitOn (.char '\n') = Export.cssLines rows ++ [[]]) ∧
      exportTokens .json mixedTokens.scalars = .ok (.ofChars (Export.jsonText rows)) := by
  have tooLong : ∀ token ∈ longTokens.entries, token.2.isTooLong = true := by decide +kernel
  have finite : ∀ token ∈ mixedTokens.entries, token.2.IsFinite := by decide +kernel
  have short : ∀ token ∈ mixedTokens.entries, token.2.isTooLong = false := by decide +kernel
  have unbroken : ∀ token ∈ mixedTokens.entries, '\n' ∉ token.1.toList ∧
      ∀ text, token.2 = .text text → .char '\n' ∉ text.points := by
    have text : .char '\n' ∉ (("#\"é\"😀" : String) : Text).points := by decide
    simpa [mixedTokens] using text
  constructor
  · refine (exportTokens_rows longTokens (by decide) (by simp [longTokens])).1 ?_
    exact ⟨_, List.mem_singleton_self _, tooLong _ (List.mem_singleton_self _)⟩
  · obtain ⟨rows, writes, css, json, -⟩ := (exportTokens_rows mixedTokens finite unbroken).2 short
    exact ⟨rows, writes, css, json⟩

/-- An integer with one digit more than are written keeps a token map from having any text. -/
theorem exportTokens_rows_long : (∀ token ∈ longTokens.entries, token.2.IsFinite) ∧
    (∀ token ∈ longTokens.entries, '\n' ∉ token.1.toList ∧
      ∀ text, token.2 = .text text → .char '\n' ∉ text.points) ∧
    ¬ ∃ format text, exportTokens format longTokens.scalars = .ok text := by
  have tooLong : ∀ token ∈ longTokens.entries, token.2.isTooLong = true := by decide +kernel
  have finite : ∀ token ∈ longTokens.entries, token.2.IsFinite := by decide
  refine ⟨finite, by simp [longTokens], ?_⟩
  rintro ⟨format, text, exported⟩
  rw [exportTokens_eq_error finite ⟨_, List.mem_singleton_self _, tooLong _ List.mem_cons_self⟩]
    at exported
  cases exported

example : (exportTokens .css mixedTokens.scalars).toOption = some (":root \x7b\n" ++
    "  --color-ink: #\"é\"😀;\n  --size-md: 16;\n  --size-lg: 24;\n  --ratio: -1e-7;\n\x7d\n") := by
  decide +kernel

end DesignSystem
