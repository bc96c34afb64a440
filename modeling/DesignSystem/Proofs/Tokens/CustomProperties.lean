import DesignSystem.Proofs.Tokens.Export
import Mathlib.Data.List.DropRight

/-! # Custom properties of tokens

The style sheet of a token map declares one custom property for each token. The names of tokens are
different, their properties need not be: two names have one property if they are the same when dots
become dashes, and then the later token overrides the earlier one.

* `StyleSheet.text`, `StyleSheet.value?`: declarations on the root, and what a property ends up as.
* `StyleSheet.declarations?`: the declarations that a style sheet is read for.
* `Export.Declares`, `Export.Keeps`: a declaration for a token, and a token whose declaration counts.
* `exportTokens_css_properties`: the declarations of a token map.
-/

namespace DesignSystem
set_option autoImplicit false

/-! ## Style sheets -/

namespace StyleSheet

/-- A custom property with its value. -/
structure Declaration where
  property : List Char
  value : Text
  deriving DecidableEq

def Declaration.points (declaration : Declaration) : List CodePoint :=
  ("  ".toList ++ declaration.property ++ ": ".toList).map .char ++ declaration.value.points ++
    ";\n".toList.map .char

/-- One rule, for the root, with some declarations. -/
def text (declarations : List Declaration) : Text :=
  ⟨":root \x7b\n".toList.map .char ++ declarations.flatMap Declaration.points ++
    "\x7d\n".toList.map .char⟩

/-- The value of a property: of several declarations the last one overrides the others. -/
def value? (declarations : List Declaration) (property : List Char) : Option Text :=
  (declarations.reverse.find? (·.property = property)).map (·.value)

theorem value?_append_cons {before after : List Declaration} {declaration : Declaration}
    (last : ∀ other ∈ after, other.property ≠ declaration.property) :
    value? (before ++ declaration :: after) declaration.property = some declaration.value := by
  have none : after.reverse.find? (·.property = declaration.property) = none := by
    simpa using last
  simp [value?, List.find?_append, none]

/-! ## Reading -/

/-- A character of a name. -/
def isNameChar (c : Char) : Bool := c.isAlphanum || c == '-' || c == '_' || 0x80 ≤ c.toNat

/-- Two dashes and at least one character of a name. -/
def isCustomProperty : List Char → Bool
  | '-' :: '-' :: c :: rest => (c :: rest).all isNameChar
  | _ => false

/-- The characters that open or close something in a value, or begin an escape, a comment or a
priority. -/
def valueMarks : List Char :=
  ['"', '\'', '\\', '(', ')', '[', ']', '\x7b', '\x7d', ';', '!', '/']

/-- A character that stands for itself in a value. -/
def isValueChar (c : Char) : Bool := 0x20 ≤ c.toNat && !valueMarks.contains c

def trimmed (text : List Char) : List Char :=
  (text.dropWhile Char.isWhitespace).rdropWhile Char.isWhitespace

/-- A declaration without blanks around its value. -/
def Declaration.trimmed (declaration : Declaration) : Declaration :=
  ⟨declaration.property, .ofChars (StyleSheet.trimmed declaration.value.chars)⟩

/-- The declaration of a custom property, if a text is one. -/
def declaration? (text : List Char) : Option Declaration :=
  match text.span (· != ':') with
  | (property, _ :: value) =>
    if isCustomProperty (trimmed property) then
      some ⟨trimmed property, .ofChars (trimmed value)⟩
    else none
  | _ => none

/-- The declarations of custom properties in a style sheet that is one rule for the root. What ends
at a semicolon and is no such declaration is passed over. Where characters of a value have a meaning
of their own, this is no reading of a style sheet. -/
def declarations? (sheet : List Char) : Option (List Declaration) := do
  let inner ← ":root \x7b".toList.isPrefixOf? sheet
  match inner.span (· != '\x7d') with
  | (body, _ :: _) => some ((body.splitOn ';').filterMap declaration?)
  | _ => none

/-! ## Sheets that are read back -/

/-- A declaration in which every character stands for itself. -/
structure Declaration.IsPlain (declaration : Declaration) : Prop where
  property : isCustomProperty declaration.property = true
  unicode : declaration.value.isUnicode = true
  value : ∀ c ∈ declaration.value.chars, isValueChar c = true

theorem points_text (declarations : List Declaration) : (text declarations).points =
    ":root \x7b\n".toList.map .char ++ declarations.flatMap Declaration.points ++
      "\x7d\n".toList.map .char := rfl

/-- What stands before the semicolon of a declaration. -/
def Declaration.chars (declaration : Declaration) : List Char :=
  "  ".toList ++ declaration.property ++ ": ".toList ++ declaration.value.chars

theorem Declaration.map_shown_points (declaration : Declaration) :
    declaration.points.map CodePoint.shown = declaration.chars ++ ";\n".toList := by
  simp only [Declaration.points, Declaration.chars, List.map_append, CodePoint.map_shown_char,
    Text.chars]

theorem chars_text (declarations : List Declaration) : (text declarations).chars =
    ":root \x7b\n".toList ++ declarations.flatMap (·.chars ++ ";\n".toList) ++ "\x7d\n".toList := by
  rw [Text.chars, points_text, List.map_append, List.map_append, CodePoint.map_shown_char,
    CodePoint.map_shown_char, List.map_flatMap]
  simp only [Declaration.map_shown_points]

theorem isUnicode_text {declarations : List Declaration}
    (plain : ∀ declaration ∈ declarations, declaration.IsPlain) :
    (text declarations).isUnicode = true := by
  have each : ∀ declaration ∈ declarations, ∀ point ∈ declaration.points,
      point.isChar = true := by
    intro declaration listed
    have value := List.all_eq_true.mp (plain declaration listed).unicode
    simpa [Declaration.points, or_imp, forall_and] using value
  rw [Text.isUnicode, points_text, List.all_eq_true]
  simp only [List.forall_mem_append, List.forall_mem_flatMap, List.forall_mem_map,
    CodePoint.isChar_char, implies_true, true_and, and_true]
  exact each

theorem span_bne {c : Char} {text : List Char} (absent : c ∉ text) (rest : List Char) :
    (text ++ c :: rest).span (· != c) = (text, c :: rest) := by
  have others : ∀ d ∈ text, (d != c) = true := fun d mem =>
    bne_iff_ne.mpr fun e => absent (e ▸ mem)
  rw [List.span_eq_takeWhile_dropWhile, List.takeWhile_append_of_pos others,
    List.dropWhile_append_of_pos others]
  simp

theorem exists_of_isCustomProperty {property : List Char}
    (h : isCustomProperty property = true) :
    ∃ c rest, property = '-' :: '-' :: c :: rest ∧ ∀ d ∈ property, isNameChar d = true := by
  unfold isCustomProperty at h
  split at h
  · next c rest =>
    rw [List.all_eq_true] at h
    exact ⟨c, rest, rfl, List.forall_mem_cons.mpr
      ⟨by decide, List.forall_mem_cons.mpr ⟨by decide, h⟩⟩⟩
  · cases h

/-- The characters of names are none of those between which names stand. -/
theorem isNameChar_apart {c : Char} (h : isNameChar c = true) :
    c ∉ [':', ';', '\x7d'] ∧ c.isWhitespace = false := by
  have apart : ∀ d : Char, isNameChar d = false → c ≠ d := by
    rintro d other rfl
    rw [h] at other
    cases other
  have marks : ∀ d ∈ [':', ';', '\x7d', ' ', '\t', '\r', '\n'], c ≠ d := by
    simp only [List.forall_mem_cons]
    exact ⟨apart _ rfl, apart _ rfl, apart _ rfl, apart _ rfl, apart _ rfl, apart _ rfl,
      apart _ rfl, by simp⟩
  simp only [List.forall_mem_cons] at marks
  simp [Char.isWhitespace, marks]

theorem isValueChar_apart {c : Char} (h : isValueChar c = true) : c ∉ [';', '\x7d'] := by
  intro mem
  simp only [List.mem_cons, List.not_mem_nil, or_false] at mem
  rcases mem with rfl | rfl <;> cases h

theorem trimmed_property {property : List Char} (h : isCustomProperty property = true) :
    trimmed ("\n  ".toList ++ property) = property := by
  obtain ⟨c, rest, same, names⟩ := exists_of_isCustomProperty h
  have start : ("\n  ".toList ++ property).dropWhile Char.isWhitespace = property := by
    rw [List.dropWhile_append_of_pos (List.all_eq_true.mp (by decide)), same]
    rfl
  rw [trimmed, start, List.rdropWhile_eq_self_iff]
  intro nonempty
  simp [(isNameChar_apart (names _ (List.getLast_mem nonempty))).2]

theorem declaration?_text {declaration : Declaration} (plain : declaration.IsPlain) :
    declaration? ('\n' :: declaration.chars) = some declaration.trimmed := by
  obtain ⟨-, -, -, names⟩ := exists_of_isCustomProperty plain.property
  have colon : ':' ∉ "\n  ".toList ++ declaration.property := by
    rw [List.mem_append, not_or]
    exact ⟨by decide, fun mem => (isNameChar_apart (names _ mem)).1 (by decide)⟩
  have value : trimmed (' ' :: declaration.value.chars) = trimmed declaration.value.chars := rfl
  have parts : '\n' :: declaration.chars =
      "\n  ".toList ++ declaration.property ++ ':' :: ' ' :: declaration.value.chars := by
    simp [Declaration.chars]
  rw [parts, declaration?, span_bne colon]
  simp only [trimmed_property plain.property, plain.property, value, if_true,
    Declaration.trimmed]

/-- A text without semicolons and closing braces. -/
theorem not_mem_chars {declaration : Declaration} (plain : declaration.IsPlain) {c : Char}
    (mark : c ∈ [';', '\x7d']) : c ∉ declaration.chars := by
  obtain ⟨-, -, -, names⟩ := exists_of_isCustomProperty plain.property
  have literals : c ∉ "  ".toList ∧ c ∉ ": ".toList := by
    simp only [List.mem_cons, List.not_mem_nil, or_false] at mark
    rcases mark with rfl | rfl <;> decide
  simp only [Declaration.chars, List.mem_append, not_or]
  exact ⟨⟨⟨literals.1, fun mem => (isNameChar_apart (names c mem)).1 (List.mem_cons_of_mem _ mark)⟩,
    literals.2⟩, fun mem => isValueChar_apart (plain.value c mem) mark⟩

theorem splitOn_text {declarations : List Declaration}
    (plain : ∀ declaration ∈ declarations, declaration.IsPlain) :
    ('\n' :: declarations.flatMap (·.chars ++ ";\n".toList)).splitOn ';' =
      declarations.map (fun declaration => '\n' :: declaration.chars) ++ [['\n']] := by
  induction declarations with
  | nil => decide
  | cons declaration declarations ih =>
    rw [List.forall_mem_cons] at plain
    have here : ';' ∉ '\n' :: declaration.chars :=
      fun mem => (List.mem_cons.mp mem).elim (by decide) (not_mem_chars plain.1 (by decide))
    have first : '\n' :: (declaration :: declarations).flatMap (·.chars ++ ";\n".toList) =
        '\n' :: declaration.chars ++
          ';' :: '\n' :: declarations.flatMap (·.chars ++ ";\n".toList) := by
      simp
    rw [first, List.splitOn_append_cons_of_beq _ _ (by decide), List.splitOn_eq_singleton here,
      ih plain.2]
    rfl

/-- The style sheet of plain declarations is read for them, blanks around values apart. -/
theorem declarations?_text {declarations : List Declaration}
    (plain : ∀ declaration ∈ declarations, declaration.IsPlain) :
    declarations? (text declarations).chars = some (declarations.map Declaration.trimmed) := by
  have brace : '\x7d' ∉ '\n' :: declarations.flatMap (·.chars ++ ";\n".toList) := by
    rw [List.mem_cons, List.mem_flatMap]
    rintro (same | ⟨declaration, listed, mem⟩)
    · cases same
    · rcases List.mem_append.mp mem with mem | mem
      · exact not_mem_chars (plain declaration listed) (by decide) mem
      · exact absurd mem (by decide)
  have sheet : (text declarations).chars = ":root \x7b".toList ++
      ('\n' :: declarations.flatMap (·.chars ++ ";\n".toList) ++ '\x7d' :: ['\n']) := by
    rw [chars_text]
    simp
  have last : declaration? ['\n'] = none := by decide
  have each : (declarations.map fun declaration => '\n' :: declaration.chars).filterMap
      declaration? = declarations.map Declaration.trimmed := by
    rw [List.filterMap_map, ← List.filterMap_eq_map]
    exact List.filterMap_congr fun declaration listed =>
      declaration?_text (plain declaration listed)
  have opens : ":root \x7b".toList.isPrefixOf? (text declarations).chars =
      some ('\n' :: declarations.flatMap (·.chars ++ ";\n".toList) ++ '\x7d' :: ['\n']) :=
    List.isPrefixOf?_eq_some_iff_append_eq.mpr sheet.symm
  rw [declarations?, opens]
  simp only [Option.bind_eq_bind, Option.bind_some, span_bne brace, splitOn_text plain,
    List.filterMap_append, each, List.filterMap_cons, last, List.filterMap_nil, List.append_nil]

end StyleSheet

namespace Export
open StyleSheet (Declaration)

/-! ## Declarations of tokens -/

/-- A name with dashes for its dots. -/
def dashed (name : String) : String :=
  .ofList (name.toList.map fun c => if c == '.' then '-' else c)

theorem cssName_eq (name : String) : cssName name = '-' :: '-' :: (dashed name).toList := by
  simp [cssName, dashed]

theorem cssName_eq_iff {name other : String} : cssName name = cssName other ↔
    dashed name = dashed other := by
  simp [cssName_eq, String.toList_inj]

/-- A declaration for a token: of the property of its name, with its text, or with a numeral for its
number. -/
def Declares (declaration : Declaration) (token : String × TokenValue) : Prop :=
  declaration.property = cssName token.1 ∧
    match token.2 with
    | .text text => declaration.value = text
    | .number n => ∃ numeral, declaration.value = .ofChars numeral ∧ Json.Denotes numeral n

/-- A token whose property ends up with its value. -/
def Keeps (declarations : List Declaration) (token : String × TokenValue) : Prop :=
  ∃ value, StyleSheet.value? declarations (cssName token.1) = some value ∧
    Declares ⟨cssName token.1, value⟩ token

/-- The declaration of a token that can be rendered. -/
def declarationOf (token : String × TokenValue) : Declaration :=
  ⟨cssName token.1, (Row.of (token.1, token.2.scalar)).rendering⟩

theorem declarationOf_declares {token : String × TokenValue} (finite : token.2.IsFinite)
    (short : token.2.isTooLong = false) : Declares (declarationOf token) token := by
  have writes := (Row.of_writes token.1 finite short).2
  refine ⟨rfl, ?_⟩
  obtain ⟨name, _ | n⟩ := token
  · exact writes.1
  · exact writes.1

theorem points_declarationOf (token : String × TokenValue) : (declarationOf token).points =
    (Row.of (token.1, token.2.scalar)).declaration ++ [.char '\n'] := by
  simp [Declaration.points, declarationOf, Row.declaration, Row.of]

section
variable {tokens : CompiledTokens}

theorem css_eq_text (finite : ∀ token ∈ tokens.entries, token.2.IsFinite)
    (short : ∀ token ∈ tokens.entries, token.2.isTooLong = false) :
    css tokens.scalars = .ok (StyleSheet.text (tokens.entries.map declarationOf)).points := by
  have body := (lines_scalars (·.declaration ++ [.char '\n']) finite cssLine_eq).2 short
  have same : (rows tokens).flatMap (·.declaration ++ [.char '\n']) =
      (tokens.entries.map declarationOf).flatMap Declaration.points := by
    simp only [rows, CompiledTokens.scalars, List.map_map, List.flatMap_map, points_declarationOf,
      Function.comp_apply]
  rw [css, body, same]
  rfl

theorem exists_of_lines {line : String → Scalar → Except NumberFault (List CodePoint)}
    {scalars : List (String × Scalar)} {body : List CodePoint}
    (writes : lines line scalars = .ok body) :
    ∀ token ∈ scalars, ∃ text, line token.1 token.2 = .ok text := by
  induction scalars generalizing body with
  | nil => simp
  | cons token scalars ih =>
    obtain ⟨text, here, writes⟩ := bind_eq_ok writes
    obtain ⟨others, rest, -⟩ := bind_eq_ok writes
    exact List.forall_mem_cons.mpr ⟨⟨text, here⟩, ih rest⟩

theorem finite_of_cssLine {token : String × TokenValue} {text : List CodePoint}
    (writes : cssLine token.1 token.2.scalar = .ok text) : token.2.IsFinite := by
  obtain ⟨rendered, renders, -⟩ := bind_eq_ok writes
  obtain ⟨name, _ | _ | x⟩ := token
  · trivial
  · trivial
  · by_contra infinite
    have stops := Binary64.rendered_not_finite (Bool.eq_false_of_not_eq_true infinite)
    obtain ⟨numeral, renders, -⟩ := map_eq_ok renders
    cases stops.symm.trans renders

/-- The tokens that have a style sheet. -/
theorem css_eq_ok_iff : (∃ text, css tokens.scalars = .ok text) ↔
    ∀ token ∈ tokens.entries, token.2.IsFinite ∧ token.2.isTooLong = false := by
  constructor
  · rintro ⟨text, writes⟩
    obtain ⟨body, each, -⟩ := bind_eq_ok writes
    intro token mem
    obtain ⟨line, writesLine⟩ := forall_scalars.mp (exists_of_lines each) token mem
    have finite := finite_of_cssLine writesLine
    refine ⟨finite, Bool.eq_false_of_not_eq_true fun long => ?_⟩
    rw [cssLine_eq token finite, if_pos long] at writesLine
    cases writesLine
  · intro each
    exact ⟨_, css_eq_text (fun token mem => (each token mem).1) fun token mem => (each token mem).2⟩

theorem keeps_of_last {before after : List (String × TokenValue)} {token : String × TokenValue}
    (split : tokens.entries = before ++ token :: after) (finite : token.2.IsFinite)
    (short : token.2.isTooLong = false) (last : ∀ other ∈ after, dashed other.1 ≠ dashed token.1) :
    Keeps (tokens.entries.map declarationOf) token := by
  refine ⟨(declarationOf token).value, ?_, declarationOf_declares finite short⟩
  rw [split, List.map_append, List.map_cons]
  refine StyleSheet.value?_append_cons ?_
  rw [List.forall_mem_map]
  exact fun other mem => cssName_eq_iff.not.mpr (last other mem)

theorem properties_nodup_iff : ((tokens.entries.map declarationOf).map (·.property)).Nodup ↔
    (tokens.names.map dashed).Nodup := by
  simp only [List.Nodup, List.pairwise_map, Dict.names, declarationOf, ne_eq, cssName_eq_iff]

end

/-! ## Plain tokens -/

/-- A token whose name and text have no characters with a meaning of their own in a style sheet. -/
structure IsPlainToken (token : String × TokenValue) : Prop where
  named : token.1 ≠ ""
  name : ∀ c ∈ token.1.toList, StyleSheet.isNameChar c = true ∨ c = '.'
  text : ∀ text, token.2 = .text text →
    text.isUnicode = true ∧ ∀ c ∈ text.chars, StyleSheet.isValueChar c = true

theorem isCustomProperty_cssName {name : String} (named : name ≠ "")
    (chars : ∀ c ∈ name.toList, StyleSheet.isNameChar c = true ∨ c = '.') :
    StyleSheet.isCustomProperty (cssName name) = true := by
  obtain ⟨c, rest, cs⟩ : ∃ c rest, name.toList = c :: rest :=
    List.exists_cons_of_ne_nil fun e => named (String.toList_inj.mp e)
  rw [cs] at chars
  rw [cssName, cs]
  change ((c :: rest).map fun d => if d == '.' then '-' else d).all StyleSheet.isNameChar = true
  rw [List.all_map, List.all_eq_true]
  intro d mem
  by_cases dot : d = '.'
  · subst dot
    decide
  · simpa [dot] using chars d mem

theorem isValueChar_numeral {c : Char} (h : Json.isNumeralChar c = true) :
    StyleSheet.isValueChar c = true := by
  simp only [Json.isNumeralChar, Bool.or_eq_true, beq_iff_eq] at h
  rcases h with ((((digit | rfl) | rfl) | rfl) | rfl) | rfl
  · have apart : ∀ d ∈ StyleSheet.valueMarks, d.isDigit = false := by simp [StyleSheet.valueMarks]
    have least : 48 ≤ c.toNat := by
      simp only [Char.isDigit, Bool.and_eq_true, decide_eq_true_eq] at digit
      exact digit.1
    rw [StyleSheet.isValueChar, Bool.and_eq_true, decide_eq_true_eq, Bool.not_eq_true',
      List.contains_eq_mem, decide_eq_false_iff_not]
    refine ⟨by omega, fun mem => ?_⟩
    rw [apart c mem] at digit
    cases digit
  all_goals decide

theorem declarationOf_isPlain {token : String × TokenValue} (finite : token.2.IsFinite)
    (short : token.2.isTooLong = false) (plain : IsPlainToken token) :
    (declarationOf token).IsPlain := by
  have value : (declarationOf token).value.isUnicode = true ∧
      ∀ c ∈ (declarationOf token).value.chars, StyleSheet.isValueChar c = true := by
    have declares := (declarationOf_declares finite short).2
    obtain ⟨name, text | n⟩ := token
    · rw [show (declarationOf (name, .text text)).value = text from declares]
      exact plain.text text rfl
    · obtain ⟨numeral, same, denotes⟩ := declares
      obtain ⟨s, valid, rfl⟩ := denotes.numeral
      rw [same, Text.chars_ofChars]
      exact ⟨Text.isUnicode_ofChars _, fun c mem => isValueChar_numeral (valid.isNumeralChar mem)⟩
  exact ⟨isCustomProperty_cssName plain.named plain.name, value.1, value.2⟩

end Export

/-! ## Style sheets of token maps -/

/-- Tokens have a style sheet if their numbers are finite and not too long. It has a declaration for
each token in order. Their properties are as different as the names are with dashes for dots: of the
tokens that share a property the last one keeps it, and where no two share one all tokens keep
theirs. The style sheet of plain tokens is a Unicode text and is read for these declarations. -/
theorem exportTokens_css_properties (tokens : CompiledTokens) :
    ((∃ text, exportTokens .css tokens.scalars = .ok text) ↔
      ∀ token ∈ tokens.entries, token.2.IsFinite ∧ token.2.isTooLong = false) ∧
    ∀ text, exportTokens .css tokens.scalars = .ok text →
      ∃ declarations : List StyleSheet.Declaration,
        text = StyleSheet.text declarations ∧
        List.Forall₂ Export.Declares declarations tokens.entries ∧
        ((declarations.map (·.property)).Nodup ↔ (tokens.names.map Export.dashed).Nodup) ∧
        ((tokens.names.map Export.dashed).Nodup →
          ∀ token ∈ tokens.entries, Export.Keeps declarations token) ∧
        (∀ before token after, tokens.entries = before ++ token :: after →
          (∀ other ∈ after, Export.dashed other.1 ≠ Export.dashed token.1) →
            Export.Keeps declarations token) ∧
        ((∀ token ∈ tokens.entries, Export.IsPlainToken token) →
          text.isUnicode = true ∧ StyleSheet.declarations? text.chars =
            some (declarations.map StyleSheet.Declaration.trimmed)) := by
  have returns : (∃ text, exportTokens .css tokens.scalars = .ok text) ↔
      ∃ text, Export.css tokens.scalars = .ok text := by
    constructor
    · rintro ⟨text, writes⟩
      obtain ⟨points, css, -⟩ := map_eq_ok writes
      exact ⟨points, css⟩
    · rintro ⟨points, css⟩
      exact ⟨⟨points⟩, by rw [exportTokens, css]; rfl⟩
  refine ⟨returns.trans Export.css_eq_ok_iff, fun text writes => ?_⟩
  have each := Export.css_eq_ok_iff.mp (returns.mp ⟨text, writes⟩)
  have sheet := Export.css_eq_text (fun token mem => (each token mem).1)
    fun token mem => (each token mem).2
  have last : ∀ before token after, tokens.entries = before ++ token :: after →
      (∀ other ∈ after, Export.dashed other.1 ≠ Export.dashed token.1) →
        Export.Keeps (tokens.entries.map Export.declarationOf) token := by
    intro before token after split
    obtain ⟨finite, short⟩ := each token (by simp [split])
    exact Export.keeps_of_last split finite short
  obtain rfl : StyleSheet.text (tokens.entries.map Export.declarationOf) = text := by
    rw [exportTokens, sheet] at writes
    exact Except.ok.inj writes
  refine ⟨tokens.entries.map Export.declarationOf, rfl, ?_, Export.properties_nodup_iff, ?_, last,
    ?_⟩
  · rw [List.forall₂_map_left_iff, List.forall₂_same]
    exact fun token mem => Export.declarationOf_declares (each token mem).1 (each token mem).2
  · intro distinct token mem
    obtain ⟨before, after, split⟩ := List.append_of_mem mem
    refine last before token after split fun other later same => ?_
    rw [Dict.names, split, List.map_append, List.map_append, List.nodup_append, List.map_cons,
      List.map_cons, List.nodup_cons] at distinct
    exact distinct.2.1.1 (same ▸ List.mem_map_of_mem (List.mem_map_of_mem later))
  · intro plain
    have declared := List.forall_mem_map.mpr fun token mem =>
      Export.declarationOf_isPlain (each token mem).1 (each token mem).2 (plain token mem)
    exact ⟨StyleSheet.isUnicode_text declared, StyleSheet.declarations?_text declared⟩

/-- Two tokens for one property. -/
def sharingTokens : CompiledTokens where
  entries := [("color.ink", .text "#111111"), ("color-ink", .text "#222222")]
  distinct := by decide

/-- The properties of a token map need not be different, nor does every token keep its own. -/
theorem exportTokens_css_properties_shared : ∃ declarations : List StyleSheet.Declaration,
    exportTokens .css sharingTokens.scalars = .ok (StyleSheet.text declarations) ∧
    StyleSheet.declarations? (StyleSheet.text declarations).chars = some declarations ∧
    ¬ (declarations.map (·.property)).Nodup ∧
    ("color.ink", .text "#111111") ∈ sharingTokens.entries ∧
    ¬ Export.Keeps declarations ("color.ink", .text "#111111") := by
  refine ⟨[⟨"--color-ink".toList, "#111111"⟩, ⟨"--color-ink".toList, "#222222"⟩],
    by rfl, by decide +kernel, by decide, by decide, ?_⟩
  rintro ⟨value, ends, -, own⟩
  have other : value = "#222222" := (Option.some.inj ends).symm
  exact absurd (other.symm.trans own) (by decide)

/-- Tokens whose names stay different. -/
def apartTokens : CompiledTokens where
  entries := [("color.ink", .text "#111111"), ("color_ink", .text "bold 1px"),
    ("size.md-2", .number (.float (.ofRatio false 3 2)))]
  distinct := by decide

theorem exportTokens_css_properties_apart :
    (apartTokens.names.map Export.dashed).Nodup ∧
    (∀ token ∈ apartTokens.entries, Export.IsPlainToken token) ∧
    ∃ declarations : List StyleSheet.Declaration,
      exportTokens .css apartTokens.scalars = .ok (StyleSheet.text declarations) ∧
      (declarations.map (·.property)).Nodup ∧
      (∀ token ∈ apartTokens.entries, Export.Keeps declarations token) ∧
      (StyleSheet.text declarations).isUnicode = true ∧
      StyleSheet.declarations? (StyleSheet.text declarations).chars =
        some (declarations.map StyleSheet.Declaration.trimmed) := by
  have each : ∀ token ∈ apartTokens.entries, token.2.IsFinite ∧ token.2.isTooLong = false := by
    decide +kernel
  have distinct : (apartTokens.names.map Export.dashed).Nodup := by decide +kernel
  have plain : ∀ token ∈ apartTokens.entries, Export.IsPlainToken token := by
    simp only [apartTokens, List.forall_mem_cons]
    refine ⟨⟨by decide, ?_, ?_⟩, ⟨by decide, ?_, ?_⟩, ⟨by decide, ?_, ?_⟩, by simp⟩
    · simp [StyleSheet.isNameChar]
    · rintro _ ⟨⟩
      exact ⟨by decide, List.all_eq_true.mp (by decide)⟩
    · simp [StyleSheet.isNameChar]
    · rintro _ ⟨⟩
      exact ⟨by decide, List.all_eq_true.mp (by decide)⟩
    · simp [StyleSheet.isNameChar]
    · rintro _ ⟨⟩
  obtain ⟨text, writes⟩ := (exportTokens_css_properties apartTokens).1.mpr each
  obtain ⟨declarations, rfl, -, properties, kept, -, read⟩ :=
    (exportTokens_css_properties apartTokens).2 text writes
  exact ⟨distinct, plain, declarations, writes, properties.mpr distinct, kept distinct,
    read plain⟩

end DesignSystem
