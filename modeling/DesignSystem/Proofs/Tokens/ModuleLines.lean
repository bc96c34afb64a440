import DesignSystem.Proofs.Json.Grammar
import DesignSystem.Proofs.Tokens.Export

/-! # The lines of the TypeScript module

The module of a token map has one line for each token, with the literals of its name and its value.
Whatever the names and the texts hold, its characters are printable ASCII.

* `IsPlainAscii`: the characters of its lines.
* `Export.IsFieldLine`: a line for a token.
* `Export.lines_tsLine_injective`: the lines of tokens are those of no others.
* `exportTokens_ts_lines`: the module of a token map, which no other token map has.
-/

namespace DesignSystem
set_option autoImplicit false

/-! ## Printable characters -/

/-- A character of ASCII that prints, the blank among them. -/
def IsPlainAscii (c : Char) : Prop := 0x20 ≤ c.toNat ∧ c.toNat ≤ 0x7E

instance : DecidablePred IsPlainAscii := fun _ => inferInstanceAs (Decidable (_ ∧ _))

theorem IsPlainAscii.ne_newline {c : Char} (plain : IsPlainAscii c) : c ≠ '\n' := by
  rintro rfl
  exact absurd plain (by decide)

/-- Closed texts are checked character by character. -/
theorem isPlainAscii_of_all {text : List Char}
    (all : text.all (fun c => decide (IsPlainAscii c)) = true) : ∀ c ∈ text, IsPlainAscii c :=
  fun c mem => of_decide_eq_true (List.all_eq_true.mp all c mem)

namespace Json

theorem isPlainAscii_hexDigits (n : ℕ) : ∀ c ∈ hexDigits 4 n, IsPlainAscii c := by
  have digit : ∀ d < 16, IsPlainAscii d.digitChar := by decide
  have each : ∀ m, IsPlainAscii (m % 16).digitChar := fun m => digit _ (Nat.mod_lt _ (by decide))
  simp [hexDigits_four, each]

theorem isPlainAscii_unit (n : ℕ) : ∀ d ∈ '\\' :: 'u' :: hexDigits 4 n, IsPlainAscii d :=
  List.forall_mem_cons.mpr
    ⟨by decide, List.forall_mem_cons.mpr ⟨by decide, isPlainAscii_hexDigits n⟩⟩

theorem isPlainAscii_unicodeEscape (c : Char) : ∀ d ∈ unicodeEscape c, IsPlainAscii d := by
  simp only [unicodeEscape]
  split
  · exact isPlainAscii_unit _
  · exact List.forall_mem_append.mpr ⟨isPlainAscii_unit _, isPlainAscii_unit _⟩

theorem isPlainAscii_escaped (c : Char) : ∀ d ∈ escaped true c, IsPlainAscii d := by
  simp only [escaped, Bool.or_eq_true, Bool.true_and, beq_iff_eq, decide_eq_true_eq]
  split
  · next quoted => rcases quoted with rfl | rfl <;> exact isPlainAscii_of_all (by decide)
  split
  · exact isPlainAscii_of_all (by decide)
  split
  · exact isPlainAscii_of_all (by decide)
  split
  · exact isPlainAscii_of_all (by decide)
  split
  · exact isPlainAscii_of_all (by decide)
  split
  · exact isPlainAscii_of_all (by decide)
  split
  · exact isPlainAscii_unicodeEscape c
  · next plain =>
    rw [not_or, Nat.not_lt, Nat.not_lt] at plain
    exact fun d mem => List.mem_singleton.mp mem ▸ plain

theorem isPlainAscii_escapedChars (point : CodePoint) :
    ∀ d ∈ escapedChars true point, IsPlainAscii d := by
  cases point with
  | char c =>
    rw [escapedChars_char]
    exact isPlainAscii_escaped c
  | surrogate half =>
    rw [escapedChars_surrogate]
    exact isPlainAscii_unit half.unit

theorem isPlainAscii_literal (text : Text) : ∀ c ∈ literal true text, IsPlainAscii c := by
  rw [literal_eq, List.forall_mem_cons, List.forall_mem_append, List.forall_mem_flatMap]
  exact ⟨by decide, fun point _ => isPlainAscii_escapedChars point, isPlainAscii_of_all (by decide)⟩

theorem isPlainAscii_numeralChar {c : Char} (h : isNumeralChar c = true) : IsPlainAscii c := by
  simp only [isNumeralChar, Bool.or_eq_true, beq_iff_eq] at h
  rcases h with ((((digit | rfl) | rfl) | rfl) | rfl) | rfl
  · simp only [Char.isDigit, Bool.and_eq_true, decide_eq_true_eq, UInt32.le_iff_toNat_le] at digit
    have least : 48 ≤ c.toNat := digit.1
    have most : c.toNat ≤ 57 := digit.2
    exact ⟨by omega, by omega⟩
  all_goals decide

/-! ## Texts that are read back from their beginning -/

theorem literal_append_injective {ascii : Bool} {first second : String} {rest after : List Char}
    (same : literal ascii first ++ rest = literal ascii second ++ after) :
    first = second ∧ rest = after := by
  simp only [literal_eq, List.cons_append, List.append_assoc, List.cons.injEq, true_and,
    List.nil_append] at same
  have reads (text : String) := @readString_literal ascii text (.inr (by simp))
  have read := reads first rest
  rw [same, reads second, Text.joined_ofString, Text.joined_ofString] at read
  obtain ⟨text, left⟩ := Prod.mk.inj (Except.ok.inj read)
  exact ⟨Text.ofString_inj.mp text.symm, left.symm⟩

theorem render_append_injective {style : Style} {first second : Json} {rest after : List Char}
    (distinct : first.Distinct ∧ second.Distinct) (unicode : first.Unicode ∧ second.Unicode)
    (writable : first.unwritable? false = none ∧ second.unwritable? false = none)
    (ends : EndsNumeral rest ∧ EndsNumeral after)
    (same : first.render style 0 ++ rest = second.render style 0 ++ after) :
    first = second ∧ rest = after := by
  have read := readValue_render true style distinct.1 (.inr unicode.1) writable.1 0
    (Nat.le_max_left _ (second.render style 0).length) ends.1
  rw [same, readValue_render true style distinct.2 (.inr unicode.2) writable.2 0
    (Nat.le_max_right _ _) ends.2, unicode.1.joined_eq_self, unicode.2.joined_eq_self] at read
  obtain ⟨document, left⟩ := Prod.mk.inj (Except.ok.inj read)
  exact ⟨document.symm, left.symm⟩

end Json

namespace TokenValue

theorem document_distinct (value : TokenValue) : value.document.Distinct := by
  cases value with
  | text text => exact .string text
  | number n => exact .number n

theorem document_finite {value : TokenValue} (finite : value.IsFinite) :
    value.document.Finite := by
  cases value with
  | text text => exact .string text
  | number n =>
    cases n with
    | int n => exact .int n
    | float x => exact .float x finite

theorem isPlainAscii_document {value : TokenValue} (finite : value.IsFinite)
    (short : value.isTooLong = false) :
    ∀ c ∈ value.document.render .asciiLine 0, IsPlainAscii c := by
  cases value with
  | text text =>
    rw [document, Json.render_string]
    exact Json.isPlainAscii_literal text
  | number n =>
    have writable := (unwritable?_eq_none finite true).mpr short
    rw [document, Json.unwritable?] at writable
    obtain ⟨s, valid, spelled⟩ := Json.numberLiteral_eq_text writable
    rw [document, Json.render_number, spelled]
    exact fun c mem => Json.isPlainAscii_numeralChar (valid.isNumeralChar mem)

end TokenValue

namespace Export

/-! ## Lines of tokens -/

/-- A line for a token: two blanks, a string literal that is read as its name, a colon and a blank,
a literal that is read as its value, and a comma. -/
def IsFieldLine (line : List Char) (token : String × TokenValue) : Prop :=
  ∃ name value, line = "  ".toList ++ name ++ ": ".toList ++ value ++ [','] ∧
    Json.IsString name ∧ Json.read false name = .ok (.string token.1) ∧
    Json.Derives .value value ∧ Json.read false value = .ok token.2.document

theorem read_document {value : TokenValue} (unicode : value.IsUnicode) (finite : value.IsFinite)
    (short : value.isTooLong = false) :
    Json.read false (value.document.render .asciiLine 0) = .ok value.document := by
  have noneAfter : ∀ c ∈ ([] : List Char), Json.isBlank c = true := by simp
  have read := Json.read_render false .asciiLine value.document_distinct (.inl rfl)
    ((TokenValue.unwritable?_eq_none finite true).mpr short) noneAfter
  rwa [List.append_nil, unicode.document.joined_eq_self] at read

theorem isFieldLine_field {token : String × TokenValue} (unicode : token.2.IsUnicode)
    (finite : token.2.IsFinite) (short : token.2.isTooLong = false) :
    IsFieldLine ((Row.of (token.1, token.2.scalar)).field ++ [',']) token := by
  have value : token.2.scalar.document = token.2.document := token.2.scalar_document
  refine ⟨Json.literal true token.1, token.2.document.render .asciiLine 0, ?_,
    Json.isString_literal true token.1, ?_,
    Json.derives_render 0 (TokenValue.document_finite finite),
    read_document unicode finite short⟩
  · rw [Row.field, Row.of, value]
  · have name := @read_document (.text token.1) (Text.isUnicode_ofString token.1) trivial rfl
    rwa [TokenValue.document, Json.render_string] at name

theorem isPlainAscii_field {token : String × TokenValue} (finite : token.2.IsFinite)
    (short : token.2.isTooLong = false) :
    ∀ c ∈ (Row.of (token.1, token.2.scalar)).field ++ [','], IsPlainAscii c := by
  rw [Row.field, Row.of, TokenValue.scalar_document]
  simp only [List.forall_mem_append]
  exact ⟨⟨⟨⟨isPlainAscii_of_all (by decide), Json.isPlainAscii_literal token.1⟩,
    isPlainAscii_of_all (by decide)⟩, TokenValue.isPlainAscii_document finite short⟩,
    isPlainAscii_of_all (by decide)⟩

/-! ## Lines of modules -/

/-- The module of rows by its lines. -/
def tsLines (rows : List Row) : List (List Char) :=
  "export const tokens = \x7b".toList :: (rows.map (·.field ++ [',']) ++
    ["\x7d as const;".toList, [], "export type TokenName = keyof typeof tokens;".toList])

theorem tsText_eq_lines (rows : List Row) :
    tsText rows = (tsLines rows).flatMap (· ++ ['\n']) := by
  have fields : (rows.map (·.field ++ [','])).flatMap (· ++ ['\n']) =
      rows.flatMap fun row => row.field ++ ",\n".toList := by
    simp [List.flatMap_map]
  have opens : "export const tokens = \x7b\n".toList =
      "export const tokens = \x7b".toList ++ ['\n'] := by simp
  have closes : "\x7d as const;\n\nexport type TokenName = keyof typeof tokens;\n".toList =
      ["\x7d as const;".toList, [], "export type TokenName = keyof typeof tokens;".toList].flatMap
        (· ++ ['\n']) := by simp
  unfold tsText tsLines
  rw [List.flatMap_cons, List.flatMap_append, fields, ← closes, ← List.append_assoc, ← opens]

section
variable {tokens : CompiledTokens}

theorem isPlainAscii_tsLines (finite : ∀ token ∈ tokens.entries, token.2.IsFinite)
    (short : ∀ token ∈ tokens.entries, token.2.isTooLong = false) :
    ∀ line ∈ tsLines (rows tokens), ∀ c ∈ line, IsPlainAscii c := by
  have fields : ∀ line ∈ (rows tokens).map (·.field ++ [',']), ∀ c ∈ line, IsPlainAscii c := by
    rw [rows, List.map_map, List.forall_mem_map, forall_scalars]
    intro token mem
    exact isPlainAscii_field (finite token mem) (short token mem)
  rw [tsLines, List.forall_mem_cons, List.forall_mem_append]
  refine ⟨isPlainAscii_of_all (by decide), fields, ?_⟩
  simp only [List.forall_mem_cons]
  exact ⟨isPlainAscii_of_all (by decide), isPlainAscii_of_all (by decide),
    isPlainAscii_of_all (by decide), by simp⟩

theorem isFieldLine_rows (unicode : ∀ token ∈ tokens.entries, token.2.IsUnicode)
    (finite : ∀ token ∈ tokens.entries, token.2.IsFinite)
    (short : ∀ token ∈ tokens.entries, token.2.isTooLong = false) :
    List.Forall₂ IsFieldLine ((rows tokens).map (·.field ++ [','])) tokens.entries := by
  rw [rows, CompiledTokens.scalars, List.map_map, List.map_map, List.forall₂_map_left_iff,
    List.forall₂_same]
  exact fun token mem => isFieldLine_field (unicode token mem) (finite token mem) (short token mem)

end

/-! ## Modules of different tokens -/

theorem tsLine_eq_ok {name : String} {value : TokenValue} {text : List Char}
    (writes : tsLine name value.scalar = .ok text) :
    value.document.unwritable? false = none ∧
      text = "  ".toList ++ (Json.literal true name ++
        (": ".toList ++ (value.document.render .asciiLine 0 ++ ",\n".toList))) := by
  obtain ⟨literal, document, e⟩ := bind_eq_ok writes
  rw [written, TokenValue.scalar_document] at document
  split at document
  · cases document
  · next writable =>
    cases document
    cases e
    exact ⟨writable, by simp⟩

theorem tsLine_append_injective {token other : String × TokenValue}
    (unicode : token.2.IsUnicode ∧ other.2.IsUnicode) {text otherText rest after : List Char}
    (writes : tsLine token.1 token.2.scalar = .ok text)
    (writesOther : tsLine other.1 other.2.scalar = .ok otherText)
    (same : text ++ rest = otherText ++ after) : token = other ∧ rest = after := by
  obtain ⟨writable, rfl⟩ := tsLine_eq_ok writes
  obtain ⟨writableOther, rfl⟩ := tsLine_eq_ok writesOther
  simp only [List.append_assoc, List.append_cancel_left_eq] at same
  obtain ⟨names, values⟩ := Json.literal_append_injective same
  rw [List.append_cancel_left_eq] at values
  have ends : ∀ text : List Char, Json.EndsNumeral (",\n".toList ++ text) := fun text =>
    .cons _ (by decide)
  obtain ⟨documents, rests⟩ := Json.render_append_injective
    ⟨token.2.document_distinct, other.2.document_distinct⟩
    ⟨unicode.1.document, unicode.2.document⟩ ⟨writable, writableOther⟩ ⟨ends rest, ends after⟩
    values
  exact ⟨Prod.ext names (TokenValue.document_injective documents),
    List.append_cancel_left rests⟩

theorem lines_tsLine_head {entry : String × TokenValue} {entries : List (String × TokenValue)}
    {none body rest : List Char} (writesNone : lines tsLine [] = .ok none)
    (writes : lines tsLine ((entry :: entries).map fun entry => (entry.1, entry.2.scalar)) =
      .ok body)
    (same : none ++ rest = body ++ rest) : rest.head? = some ' ' := by
  cases writesNone
  obtain ⟨first, line, writes⟩ := bind_eq_ok writes
  obtain ⟨later, -, e⟩ := bind_eq_ok writes
  obtain ⟨-, rfl⟩ := tsLine_eq_ok line
  cases e
  exact congrArg List.head? same

/-- Before a text that does not begin as a line, the lines of tokens are those of no others. -/
theorem lines_tsLine_injective {entries others : List (String × TokenValue)}
    (unicode : (∀ entry ∈ entries, entry.2.IsUnicode) ∧ ∀ other ∈ others, other.2.IsUnicode)
    {body otherBody rest : List Char} (closes : rest.head? ≠ some ' ')
    (writes : lines tsLine (entries.map fun entry => (entry.1, entry.2.scalar)) = .ok body)
    (writesOther : lines tsLine (others.map fun entry => (entry.1, entry.2.scalar)) = .ok otherBody)
    (same : body ++ rest = otherBody ++ rest) : entries = others := by
  induction entries generalizing others body otherBody with
  | nil =>
    cases others with
    | nil => rfl
    | cons other others => exact absurd (lines_tsLine_head writes writesOther same) closes
  | cons entry entries ih =>
    cases others with
    | nil => exact absurd (lines_tsLine_head writesOther writes same.symm) closes
    | cons other others =>
      obtain ⟨first, line, writes⟩ := bind_eq_ok writes
      obtain ⟨later, each, e⟩ := bind_eq_ok writes
      obtain ⟨otherFirst, otherLine, writesOther⟩ := bind_eq_ok writesOther
      obtain ⟨otherLater, otherEach, otherE⟩ := bind_eq_ok writesOther
      cases e
      cases otherE
      rw [List.append_assoc, List.append_assoc] at same
      rw [List.forall_mem_cons, List.forall_mem_cons] at unicode
      obtain ⟨⟨first, others⟩, ⟨otherFirst, otherOthers⟩⟩ := unicode
      obtain ⟨rfl, tails⟩ := tsLine_append_injective ⟨first, otherFirst⟩ line otherLine same
      rw [ih ⟨others, otherOthers⟩ each otherEach tails]

/-- Whatever can be written, modules of different tokens differ. -/
theorem ts_injective {tokens other : CompiledTokens}
    (unicode : (∀ token ∈ tokens.entries, token.2.IsUnicode) ∧
      ∀ token ∈ other.entries, token.2.IsUnicode) {text : List Char}
    (writes : ts tokens.scalars = .ok text) (writesOther : ts other.scalars = .ok text) :
    other = tokens := by
  obtain ⟨entries, distinct⟩ := tokens
  obtain ⟨others, otherDistinct⟩ := other
  obtain ⟨body, each, e⟩ := bind_eq_ok writes
  obtain ⟨otherBody, otherEach, otherE⟩ := bind_eq_ok writesOther
  have texts := (Except.ok.inj otherE).trans (Except.ok.inj e).symm
  rw [List.append_assoc, List.append_assoc, List.append_cancel_left_eq] at texts
  have same : others = entries :=
    lines_tsLine_injective unicode.symm (by decide) otherEach each texts
  subst same
  rfl

end Export

/-! ## Modules -/

/-- The module of compiled tokens, whose texts are Unicode and whose numbers are finite and not too
long, is made of lines of printable ASCII. After its first line and before its last three there is
one for each token, in order, and nothing follows the last line end. No other tokens with Unicode
texts have this module. -/
theorem exportTokens_ts_lines (tokens : CompiledTokens)
    (unicode : ∀ token ∈ tokens.entries, token.2.IsUnicode)
    (finite : ∀ token ∈ tokens.entries, token.2.IsFinite)
    (short : ∀ token ∈ tokens.entries, token.2.isTooLong = false) :
    ∃ (text : String) (fields : _), exportTokens .ts tokens.scalars = .ok text ∧
      (∀ c ∈ text.toList, IsPlainAscii c ∨ c = '\n') ∧
      text.toList.splitOn '\n' = "export const tokens = \x7b".toList :: (fields ++
        ["\x7d as const;".toList, [], "export type TokenName = keyof typeof tokens;".toList, []]) ∧
      (text.toList.splitOn '\n').length = tokens.entries.length + 4 + 1 ∧
      List.Forall₂ Export.IsFieldLine fields tokens.entries ∧
      ∀ other : CompiledTokens, (∀ token ∈ other.entries, token.2.IsUnicode) →
        exportTokens .ts other.scalars = .ok text → other = tokens := by
  have ts := (Export.lines_scalars (·.field ++ ",\n".toList) finite Export.tsLine_eq).2 short
  have module : Export.ts tokens.scalars = .ok (Export.tsText (Export.rows tokens)) := by
    rw [Export.ts, ts]
    rfl
  have plain := Export.isPlainAscii_tsLines finite short
  have fields := Export.isFieldLine_rows unicode finite short
  have split : (Export.tsText (Export.rows tokens)).splitOn '\n' =
      Export.tsLines (Export.rows tokens) ++ [[]] := by
    rw [Export.tsText_eq_lines, Export.splitOn_lines]
    exact fun line listed mem => (plain line listed _ mem).ne_newline rfl
  refine ⟨.ofList (Export.tsText (Export.rows tokens)),
    (Export.rows tokens).map (·.field ++ [',']), ?_, ?_, ?_, ?_, fields,
    fun other unicodeOther writes => ?_⟩
  · rw [exportTokens, module, Text.ofString, String.toList_ofList]
    rfl
  · rw [String.toList_ofList, Export.tsText_eq_lines, List.forall_mem_flatMap]
    intro line listed
    rw [List.forall_mem_append, List.forall_mem_singleton]
    exact ⟨fun c mem => .inl (plain line listed c mem), .inr rfl⟩
  · rw [String.toList_ofList, split, Export.tsLines, List.cons_append, List.append_assoc]
    rfl
  · rw [String.toList_ofList, split, ← fields.length_eq]
    simp [Export.tsLines]
  · obtain ⟨body, writesBody, e⟩ := map_eq_ok writes
    rw [Text.ofString, String.toList_ofList] at e
    cases Text.ofChars_injective e
    exact Export.ts_injective ⟨unicode, unicodeOther⟩ module writesBody

/-- Tokens with what separates names, values and lines in their names and texts. -/
def separatorTokens : CompiledTokens where
  entries := [("a\": \"b", .text "c\",\n\x7d"), ("a", .text "b\": \"c\\\u2028"),
    ("\n😀", .number (.int (-16))), ("", .number (.float (.ofRatio false 3 2)))]
  distinct := by decide

theorem exportTokens_ts_lines_separators :
    (∀ token ∈ separatorTokens.entries, token.2.IsUnicode) ∧
    (∀ token ∈ separatorTokens.entries, token.2.IsFinite) ∧
    (∀ token ∈ separatorTokens.entries, token.2.isTooLong = false) ∧
    ∃ (text : String) (fields : _), exportTokens .ts separatorTokens.scalars = .ok text ∧
      (∀ c ∈ text.toList, IsPlainAscii c ∨ c = '\n') ∧
      (text.toList.splitOn '\n').length = 9 ∧
      List.Forall₂ Export.IsFieldLine fields separatorTokens.entries ∧
      ∀ other : CompiledTokens, (∀ token ∈ other.entries, token.2.IsUnicode) →
        exportTokens .ts other.scalars = .ok text → other = separatorTokens := by
  have unicode : ∀ token ∈ separatorTokens.entries, token.2.IsUnicode := by decide +kernel
  have finite : ∀ token ∈ separatorTokens.entries, token.2.IsFinite := by decide +kernel
  have short : ∀ token ∈ separatorTokens.entries, token.2.isTooLong = false := by decide +kernel
  obtain ⟨text, fields, writes, plain, -, count, each, only⟩ :=
    exportTokens_ts_lines separatorTokens unicode finite short
  exact ⟨unicode, finite, short, text, fields, writes, plain, count, each, only⟩

example : (exportTokens .ts separatorTokens.scalars).toOption = some (
    "export const tokens = \x7b\n" ++
    "  \"a\\\": \\\"b\": \"c\\\",\\n\x7d\",\n" ++
    "  \"a\": \"b\\\": \\\"c\\\\\\u2028\",\n" ++
    "  \"\\n\\ud83d\\ude00\": -16,\n" ++
    "  \"\": 1.5,\n" ++
    "\x7d as const;\n\nexport type TokenName = keyof typeof tokens;\n") := by
  decide +kernel

end DesignSystem
