import DesignSystem.Proofs.Json.Finite
import DesignSystem.Proofs.Json.Opening

/-! # The grammar of JSON texts

The texts of documents follow the grammar of JSON, except where a number without digits is written
as a word. Outside of string literals the letters of such words occur in no text of the grammar.

* `Json.IsNumeral`, `Json.IsString`: numerals and string literals.
* `Json.Derives`, `Json.IsJsonText`: values, the insides of containers, and whole texts.
* `Json.bare`: the characters of a text outside of its string literals.
* `Json.isJsonText_render`: a document's text is a text of the grammar iff the document is finite.
-/

namespace DesignSystem
set_option autoImplicit false

namespace Json

/-! ## Numerals and strings -/

def IsDigits (text : List Char) : Prop := text ≠ [] ∧ ∀ c ∈ text, c.isDigit = true

def IsFraction (text : List Char) : Prop :=
  text = [] ∨ ∃ digits, IsDigits digits ∧ text = '.' :: digits

def IsExponent (text : List Char) : Prop :=
  text = [] ∨ ∃ letter ∈ ['e', 'E'], ∃ sign ∈ [[], ['+'], ['-']], ∃ digits, IsDigits digits ∧
    text = letter :: (sign ++ digits)

/-- A numeral: a minus sign at most, digits without a leading zero, a fraction and an exponent. -/
def IsNumeral (text : List Char) : Prop :=
  ∃ sign ∈ [[], ['-']], ∃ whole fraction exponent, Significant.IsWhole whole ∧
    IsFraction fraction ∧ IsExponent exponent ∧ text = sign ++ (whole ++ (fraction ++ exponent))

/-- What may stand between the quotes of a string literal. -/
inductive IsQuotable : List Char → Prop where
  | nil : IsQuotable []
  | plain (c : Char) {text : List Char} (quote : c ≠ '"') (backslash : c ≠ '\\')
      (control : 0x20 ≤ c.toNat) (rest : IsQuotable text) : IsQuotable (c :: text)
  | letter (c : Char) {text : List Char} (known : c ∈ ['"', '\\', '/', 'b', 'f', 'n', 'r', 't'])
      (rest : IsQuotable text) : IsQuotable ('\\' :: c :: text)
  | unit (digits : List Char) {text : List Char} (four : digits.length = 4)
      (hexadecimal : ∀ d ∈ digits, (hexValue? d).isSome = true) (rest : IsQuotable text) :
      IsQuotable ('\\' :: 'u' :: (digits ++ text))

def IsString (text : List Char) : Prop := ∃ inner, IsQuotable inner ∧ text = '"' :: (inner ++ ['"'])

def IsGap (text : List Char) : Prop := ∀ c ∈ text, isBlank c = true

/-! ## Values and texts -/

/-- The parts of a text that contain each other. -/
inductive Part where
  | value
  | items
  | fields

inductive Derives : Part → List Char → Prop where
  | null : Derives .value ['n', 'u', 'l', 'l']
  | true : Derives .value ['t', 'r', 'u', 'e']
  | false : Derives .value ['f', 'a', 'l', 's', 'e']
  | number {text : List Char} (numeral : IsNumeral text) : Derives .value text
  | string {text : List Char} (quoted : IsString text) : Derives .value text
  | noItems {gap : List Char} (blank : IsGap gap) : Derives .value ('[' :: (gap ++ [']']))
  | array {text : List Char} (items : Derives .items text) : Derives .value ('[' :: (text ++ [']']))
  | noFields {gap : List Char} (blank : IsGap gap) :
      Derives .value ('\x7b' :: (gap ++ ['\x7d']))
  | object {text : List Char} (fields : Derives .fields text) :
      Derives .value ('\x7b' :: (text ++ ['\x7d']))
  | item {before text after : List Char} (start : IsGap before) (item : Derives .value text)
      (finish : IsGap after) : Derives .items (before ++ (text ++ after))
  | items {before text after others : List Char} (start : IsGap before)
      (item : Derives .value text) (finish : IsGap after) (rest : Derives .items others) :
      Derives .items (before ++ (text ++ (after ++ ',' :: others)))
  | field {before name colon space text after : List Char} (start : IsGap before)
      (quoted : IsString name) (first : IsGap colon) (second : IsGap space)
      (value : Derives .value text) (finish : IsGap after) :
      Derives .fields (before ++ (name ++ (colon ++ ':' :: (space ++ (text ++ after)))))
  | fields {before name colon space text after others : List Char} (start : IsGap before)
      (quoted : IsString name) (first : IsGap colon) (second : IsGap space)
      (value : Derives .value text) (finish : IsGap after) (rest : Derives .fields others) :
      Derives .fields
        (before ++ (name ++ (colon ++ ':' :: (space ++ (text ++ (after ++ ',' :: others))))))

/-- A JSON text: one value, with blanks around it. -/
def IsJsonText (text : List Char) : Prop :=
  ∃ before value after, IsGap before ∧ Derives .value value ∧ IsGap after ∧
    text = before ++ (value ++ after)

/-! ## What is written follows the grammar -/

theorem IsQuotable.append {first second : List Char} (here : IsQuotable first)
    (there : IsQuotable second) : IsQuotable (first ++ second) := by
  induction here with
  | nil => exact there
  | plain c quote backslash control _ ih => exact .plain c quote backslash control ih
  | letter c known _ ih => exact .letter c known ih
  | unit digits four hexadecimal _ ih =>
    rw [List.cons_append, List.cons_append, List.append_assoc]
    exact .unit digits four hexadecimal ih

theorem hexValue?_digitChar {d : Nat} (h : d < 16) : hexValue? d.digitChar = some d := by
  revert h
  revert d
  decide

theorem isQuotable_unit (n : Nat) : IsQuotable ('\\' :: 'u' :: hexDigits 4 n) := by
  have digits : ∀ d ∈ hexDigits 4 n, (hexValue? d).isSome = true := by
    intro d mem
    obtain ⟨place, -, rfl⟩ := List.mem_map.mp mem
    rw [hexValue?_digitChar (Nat.mod_lt _ (by decide))]
    rfl
  simpa using IsQuotable.unit (hexDigits 4 n) (by simp [hexDigits_four]) digits .nil

theorem isQuotable_unicodeEscape (c : Char) : IsQuotable (unicodeEscape c) := by
  dsimp only [unicodeEscape]
  split
  · exact isQuotable_unit _
  · exact (isQuotable_unit _).append (isQuotable_unit _)

theorem isQuotable_escaped (ascii : Bool) (c : Char) : IsQuotable (escaped ascii c) := by
  simp only [escaped, Bool.or_eq_true, beq_iff_eq, decide_eq_true_eq]
  split
  · next quoted => rcases quoted with rfl | rfl <;> exact .letter _ (by decide) .nil
  split
  · exact .letter _ (by decide) .nil
  split
  · exact .letter _ (by decide) .nil
  split
  · exact .letter _ (by decide) .nil
  split
  · exact .letter _ (by decide) .nil
  split
  · exact .letter _ (by decide) .nil
  split
  · exact isQuotable_unicodeEscape c
  · next quoted _ _ _ _ _ plain =>
    rw [not_or] at quoted plain
    exact .plain c quoted.1 quoted.2 (Nat.le_of_not_lt plain.1) .nil

theorem isQuotable_escapedChars (ascii : Bool) (point : CodePoint) :
    IsQuotable (escapedChars ascii point) := by
  cases point with
  | char c =>
    rw [escapedChars_char]
    exact isQuotable_escaped ascii c
  | surrogate half =>
    rw [escapedChars_surrogate]
    split
    · exact isQuotable_unit half.unit
    · exact .plain '\uFFFD' (by decide) (by decide) (by decide) .nil

theorem isString_literal (ascii : Bool) (text : Text) : IsString (literal ascii text) := by
  refine ⟨text.points.flatMap (escapedChars ascii), ?_, literal_eq ascii text⟩
  induction text.points with
  | nil => exact .nil
  | cons point points ih => exact (isQuotable_escapedChars ascii point).append ih

theorem Spelling.Valid.isNumeral {s : Spelling} (valid : s.Valid) : IsNumeral s.text := by
  have fraction : IsFraction (pointed s.fraction) := by
    cases found : s.fraction with
    | nil => exact .inl rfl
    | cons c cs => exact .inr ⟨c :: cs, ⟨by simp, found ▸ valid.fraction⟩, rfl⟩
  have exponent : IsExponent (scaledBy s.exponent) := by
    cases found : s.exponent with
    | none => exact .inl rfl
    | some spelled =>
      obtain ⟨sign, digits⟩ := spelled
      have digits := valid.exponent sign digits found
      cases sign with
      | false => exact .inr ⟨'e', by decide, ['+'], by decide, _, digits, rfl⟩
      | true => exact .inr ⟨'e', by decide, ['-'], by decide, _, digits, rfl⟩
  cases sign : s.negative with
  | false =>
    exact ⟨[], by decide, _, _, _, valid.whole, fraction, exponent,
      by simp [text, sign, Binary64.signed]⟩
  | true =>
    exact ⟨['-'], by decide, _, _, _, valid.whole, fraction, exponent,
      by simp [text, sign, Binary64.signed]⟩

theorem isGap_edge (style : Style) (depth : Nat) : IsGap (style.edge depth) :=
  fun _ => edge_isBlank style depth

theorem isGap_nil : IsGap [] := fun c mem => by cases mem

variable {style : Style}

theorem derives_items {depth : Nat} {item : Json} {items : List Json}
    (each : ∀ i ∈ item :: items, Derives .value (i.render style depth)) {before after : List Char}
    (start : IsGap before) (finish : IsGap after) :
    Derives .items (before ++ (item.render style depth ++
      (renderItems style depth items ++ after))) := by
  induction items generalizing item before with
  | nil => exact .item start (each item List.mem_cons_self) finish
  | cons next items ih =>
    obtain ⟨gap, separator, blank⟩ := separator_eq style depth
    have rest := ih (fun i mem => each i (List.mem_cons_of_mem item mem)) blank
    rw [renderItems_cons, separator]
    simpa using Derives.items start (each item List.mem_cons_self) isGap_nil rest

theorem derives_fields {depth : Nat} {field : String × Json} {fields : Fields}
    (each : ∀ f ∈ field :: fields, Derives .value (f.2.render style depth))
    {before after : List Char} (start : IsGap before) (finish : IsGap after) :
    Derives .fields (before ++ (renderField style depth field ++
      (renderFields style depth fields ++ after))) := by
  induction fields generalizing field before with
  | nil =>
    obtain ⟨name, value⟩ := field
    have space : IsGap [' '] := by simp [IsGap, isBlank]
    simpa [renderField_eq] using Derives.field start (isString_literal style.ascii name)
      isGap_nil space (each (name, value) List.mem_cons_self) finish
  | cons next fields ih =>
    obtain ⟨name, value⟩ := field
    obtain ⟨gap, separator, blank⟩ := separator_eq style depth
    have space : IsGap [' '] := by simp [IsGap, isBlank]
    have rest := ih (fun f mem => each f (List.mem_cons_of_mem (name, value) mem)) blank
    rw [renderFields_cons, separator]
    simpa [renderField_eq] using Derives.fields start (isString_literal style.ascii name) isGap_nil
      space (each (name, value) List.mem_cons_self) isGap_nil rest

theorem derives_render (depth : Nat) {document : Json} (finite : document.Finite) :
    Derives .value (document.render style depth) := by
  induction finite generalizing depth with
  | null => rw [render_null]; exact .null
  | bool value =>
    cases value with
    | false => rw [render_false]; exact .false
    | true => rw [render_true]; exact .true
  | int n =>
    rw [render_number, numberLiteral, numeral_eq_text]
    exact .number (numeral_valid n).isNumeral
  | float x finite =>
    obtain ⟨s, valid, text⟩ := float_eq_text finite
    rw [render_number, text]
    exact .number valid.isNumeral
  | string text =>
    rw [render_string]
    exact .string (isString_literal style.ascii text)
  | array items _ ih =>
    cases items with
    | nil => rw [render_noItems]; exact .noItems isGap_nil
    | cons item items =>
      rw [render_array]
      simpa using Derives.array (derives_items (fun i mem => ih i mem (depth + 1))
        (isGap_edge style (depth + 1)) (isGap_edge style depth))
  | object fields _ ih =>
    cases fields with
    | nil => rw [render_noFields]; exact .noFields isGap_nil
    | cons field fields =>
      rw [render_object]
      simpa using Derives.object (derives_fields (fun f mem => ih f mem (depth + 1))
        (isGap_edge style (depth + 1)) (isGap_edge style depth))

/-! ## Outside of string literals -/

/-- Where a character stands. -/
inductive Quoting where
  | outside
  | inside
  | escape

/-- The characters of a text outside of its string literals. -/
def bare : Quoting → List Char → List Char
  | _, [] => []
  | .outside, c :: text => if c == '"' then bare .inside text else c :: bare .outside text
  | .inside, c :: text =>
    if c == '"' then bare .outside text
    else if c == '\\' then bare .escape text
    else bare .inside text
  | .escape, _ :: text => bare .inside text

/-- Whether a character begins a word for a number without digits, the minus sign apart. -/
def opensWord (c : Char) : Bool := c == 'I' || c == 'N'

/-- A text closes its string literals, and whether such a word begins outside of them. -/
def Shows (text : List Char) (word : Prop) : Prop :=
  ∃ kept, (∀ rest, bare .outside (text ++ rest) = kept ++ bare .outside rest) ∧
    ((∃ c ∈ kept, opensWord c = true) ↔ word)

theorem Shows.unique {text : List Char} {p q : Prop} (here : Shows text p) (there : Shows text q) :
    p ↔ q := by
  obtain ⟨kept, cuts, holds⟩ := here
  obtain ⟨other, cutsOther, holdsOther⟩ := there
  have same : kept = other := by simpa [bare] using (cuts []).symm.trans (cutsOther [])
  rw [← holds, same, holdsOther]

theorem Shows.append {first second : List Char} {p q : Prop} (here : Shows first p)
    (there : Shows second q) : Shows (first ++ second) (p ∨ q) := by
  obtain ⟨kept, cuts, holds⟩ := here
  obtain ⟨other, cutsOther, holdsOther⟩ := there
  refine ⟨kept ++ other, fun rest => ?_, ?_⟩
  · rw [List.append_assoc, cuts, cutsOther, List.append_assoc]
  · simp only [List.mem_append, or_and_right, exists_or, holds, holdsOther]

theorem Shows.congr {text : List Char} {p q : Prop} (shows : Shows text p) (same : p ↔ q) :
    Shows text q := by
  obtain ⟨kept, cuts, holds⟩ := shows
  exact ⟨kept, cuts, holds.trans same⟩

theorem Shows.beside {first second : List Char} {p : Prop} (here : Shows first False)
    (there : Shows second p) : Shows (first ++ second) p :=
  (here.append there).congr (or_iff_right not_false)

theorem Shows.before {first second : List Char} {p : Prop} (here : Shows first p)
    (there : Shows second False) : Shows (first ++ second) p :=
  (here.append there).congr (or_iff_left not_false)

theorem shows_unquoted {text : List Char} (plain : '"' ∉ text) :
    Shows text (∃ c ∈ text, opensWord c = true) := by
  refine ⟨text, fun rest => ?_, Iff.rfl⟩
  induction text with
  | nil => rfl
  | cons c cs ih =>
    obtain ⟨first, others⟩ := not_or.mp fun h => plain (List.mem_cons.mpr h)
    rw [List.cons_append, bare, if_neg (by simpa using Ne.symm first), ih others,
      List.cons_append]

/-- Whether a character neither quotes nor begins a word. -/
def isPlain (c : Char) : Bool := c != '"' && !opensWord c

theorem shows_plain {text : List Char} (plain : text.all isPlain = true) :
    Shows text False := by
  simp only [List.all_eq_true, isPlain, Bool.and_eq_true, bne_iff_ne, Bool.not_eq_true'] at plain
  refine (shows_unquoted fun mem => (plain _ mem).1 rfl).congr (iff_false_intro ?_)
  rintro ⟨c, mem, opens⟩
  rw [(plain c mem).2] at opens
  cases opens

theorem shows_nil : Shows [] False := shows_plain rfl

theorem Shows.cons {c : Char} (plain : isPlain c = true) {text : List Char} {p : Prop}
    (shows : Shows text p) : Shows (c :: text) p := by
  have single : Shows [c] False := shows_plain (by simpa using plain)
  exact single.beside shows

theorem hexadecimal_plain {d : Char} (hexadecimal : (hexValue? d).isSome = true) :
    d ≠ '"' ∧ d ≠ '\\' := by
  constructor <;> · rintro rfl; cases hexadecimal

theorem bare_hexadecimal {digits : List Char}
    (hexadecimal : ∀ d ∈ digits, (hexValue? d).isSome = true) (rest : List Char) :
    bare .inside (digits ++ rest) = bare .inside rest := by
  induction digits with
  | nil => rfl
  | cons d ds ih =>
    obtain ⟨first, others⟩ := List.forall_mem_cons.mp hexadecimal
    obtain ⟨quote, backslash⟩ := hexadecimal_plain first
    rw [List.cons_append, bare, if_neg (by simpa using quote), if_neg (by simpa using backslash),
      ih others]

theorem bare_quotable {inner : List Char} (quotable : IsQuotable inner) (rest : List Char) :
    bare .inside (inner ++ '"' :: rest) = bare .outside rest := by
  induction quotable with
  | nil => rfl
  | plain c quote backslash _ _ ih =>
    rw [List.cons_append, bare, if_neg (by simpa using quote), if_neg (by simpa using backslash),
      ih]
  | letter c _ _ ih => exact ih
  | unit digits _ hexadecimal _ ih =>
    rw [List.cons_append, List.cons_append, List.append_assoc]
    exact (bare_hexadecimal hexadecimal _).trans ih

theorem IsString.shows {text : List Char} (quoted : IsString text) : Shows text False := by
  obtain ⟨inner, quotable, rfl⟩ := quoted
  refine ⟨[], fun rest => ?_, by simp⟩
  rw [List.cons_append, List.append_assoc]
  exact bare_quotable quotable rest

theorem shows_numeral {text : List Char} (chars : ∀ c ∈ text, isNumeralChar c = true) :
    Shows text False := by
  refine shows_plain (List.all_eq_true.mpr fun c mem => ?_)
  have numeral := chars c mem
  by_contra other
  simp only [isPlain, opensWord, Bool.and_eq_true, bne_iff_ne, Bool.not_eq_true',
    Bool.or_eq_false_iff, beq_eq_false_iff_ne, not_and_or, not_not] at other
  rcases other with rfl | rfl | rfl <;> cases numeral

theorem IsDigits.isNumeralChar {text : List Char} (digits : IsDigits text) :
    ∀ c ∈ text, isNumeralChar c = true :=
  fun c mem => isNumeralChar_digit (digits.2 c mem)

theorem IsNumeral.shows {text : List Char} (numeral : IsNumeral text) : Shows text False := by
  obtain ⟨sign, signed, whole, fraction, exponent, isWhole, isFraction, isExponent, rfl⟩ := numeral
  have signChars : ∀ c ∈ sign, isNumeralChar c = true := by
    simp only [List.mem_cons, List.not_mem_nil, or_false] at signed
    rcases signed with rfl | rfl <;> simp [isNumeralChar]
  have wholeChars : ∀ c ∈ whole, isNumeralChar c = true := fun c mem =>
    isNumeralChar_digit (isWhole.isDigit c mem)
  have fractionChars : ∀ c ∈ fraction, isNumeralChar c = true := by
    rcases isFraction with rfl | ⟨digits, isDigits, rfl⟩
    · simp
    · exact List.forall_mem_cons.mpr ⟨rfl, isDigits.isNumeralChar⟩
  have exponentChars : ∀ c ∈ exponent, isNumeralChar c = true := by
    rcases isExponent with rfl | ⟨letter, letters, sign, signs, digits, isDigits, rfl⟩
    · simp
    · simp only [List.mem_cons, List.not_mem_nil, or_false] at letters signs
      refine List.forall_mem_cons.mpr ⟨by rcases letters with rfl | rfl <;> rfl,
        List.forall_mem_append.mpr ⟨?_, isDigits.isNumeralChar⟩⟩
      rcases signs with rfl | rfl | rfl <;> simp [isNumeralChar]
  refine shows_numeral ?_
  simp only [List.forall_mem_append]
  exact ⟨signChars, wholeChars, fractionChars, exponentChars⟩

theorem IsGap.shows {gap : List Char} (blank : IsGap gap) : Shows gap False := by
  refine shows_plain (List.all_eq_true.mpr fun c mem => ?_)
  have h := blank c mem
  simp only [isBlank, Bool.or_eq_true, beq_iff_eq] at h
  rcases h with ((rfl | rfl) | rfl) | rfl <;> decide

/-- No text of the grammar shows a word for a number without digits. -/
theorem Derives.shows {part : Part} {text : List Char} (derives : Derives part text) :
    Shows text False := by
  induction derives with
  | null | true | false => exact shows_plain (by decide)
  | number numeral => exact numeral.shows
  | string quoted => exact quoted.shows
  | noItems blank | noFields blank => exact .cons (by decide) (blank.shows.beside
      (shows_plain (by decide)))
  | array _ ih | object _ ih => exact .cons (by decide) (ih.beside (shows_plain (by decide)))
  | item start _ finish ih => exact start.shows.beside (ih.beside finish.shows)
  | items start _ finish _ ih rest =>
    exact start.shows.beside (ih.beside (finish.shows.beside (rest.cons (by decide))))
  | field start quoted first second _ finish ih =>
    exact start.shows.beside (quoted.shows.beside (first.shows.beside
      ((second.shows.beside (ih.beside finish.shows)).cons (by decide))))
  | fields start quoted first second _ finish _ ih rest =>
    exact start.shows.beside (quoted.shows.beside (first.shows.beside ((second.shows.beside
      (ih.beside (finish.shows.beside (rest.cons (by decide))))).cons (by decide))))

theorem IsJsonText.shows {text : List Char} (isText : IsJsonText text) : Shows text False := by
  obtain ⟨before, value, after, start, derives, finish, rfl⟩ := isText
  exact start.shows.beside (derives.shows.beside finish.shows)

theorem IsJsonText.bare {text : List Char} (isText : IsJsonText text) :
    (bare .outside text).any opensWord = false := by
  obtain ⟨kept, cuts, wordless⟩ := isText.shows
  have same : Json.bare .outside text = kept := by simpa [Json.bare] using cuts []
  rw [same]
  exact eq_false_of_ne_true fun opens => wordless.mp (List.any_eq_true.mp opens)

theorem shows_number (n : Number) : Shows (numberLiteral n) ¬(number n).Finite := by
  cases n with
  | int n =>
    rw [numberLiteral, numeral_eq_text]
    exact (numeral_valid n).isNumeral.shows.congr (by simp [Finite.int])
  | float x =>
    cases finite : x.isFinite with
    | true =>
      obtain ⟨s, valid, text⟩ := float_eq_text finite
      rw [text]
      exact valid.isNumeral.shows.congr (by simp [finite_float, finite])
    | false =>
      obtain ⟨word, -, text⟩ := exists_word finite
      rw [text]
      refine (shows_unquoted (by cases word <;> decide)).congr ?_
      have opens : word.text.toList.any opensWord = true := by cases word <;> decide
      simpa [finite_float, finite] using opens

theorem shows_separator (style : Style) (depth : Nat) : Shows (style.separator depth) False := by
  obtain ⟨gap, separator, blank⟩ := separator_eq style depth
  rw [separator]
  exact IsGap.shows blank |>.cons (by decide)

theorem shows_items {depth : Nat} {items : List Json}
    (each : ∀ i ∈ items, Shows (i.render style depth) ¬i.Finite) :
    Shows (renderItems style depth items) (∃ i ∈ items, ¬i.Finite) := by
  induction items with
  | nil =>
    rw [renderItems_nil]
    exact shows_nil.congr (by simp)
  | cons item items ih =>
    obtain ⟨first, others⟩ := List.forall_mem_cons.mp each
    rw [renderItems_cons]
    exact ((shows_separator style depth).beside (first.append (ih others))).congr (by simp)

theorem shows_field {depth : Nat} {field : String × Json}
    (value : Shows (field.2.render style depth) ¬field.2.Finite) :
    Shows (renderField style depth field) ¬field.2.Finite := by
  obtain ⟨name, part⟩ := field
  rw [renderField_eq]
  exact (isString_literal style.ascii name).shows.beside
    ((value.cons (by decide)).cons (by decide))

theorem shows_fields {depth : Nat} {fields : Fields}
    (each : ∀ f ∈ fields, Shows (f.2.render style depth) ¬f.2.Finite) :
    Shows (renderFields style depth fields) (∃ f ∈ fields, ¬f.2.Finite) := by
  induction fields with
  | nil =>
    rw [renderFields_nil]
    exact shows_nil.congr (by simp)
  | cons field fields ih =>
    obtain ⟨first, others⟩ := List.forall_mem_cons.mp each
    rw [renderFields_cons]
    exact ((shows_separator style depth).beside ((shows_field first).append (ih others))).congr
      (by simp)

/-- The break before a closing bracket, and the bracket. -/
theorem shows_closing (style : Style) (depth : Nat) (c : Char)
    (plain : isPlain c = true) : Shows (style.edge depth ++ [c]) False :=
  (isGap_edge style depth).shows.beside (shows_nil.cons plain)

/-- The text of a document shows such a word iff one of its numbers has no digits. -/
theorem shows_render (style : Style) (depth : Nat) (document : Json) :
    Shows (document.render style depth) ¬document.Finite := by
  induction document using Json.induction generalizing depth with
  | null => rw [render_null]; exact (shows_plain (by decide)).congr (by simp [Finite.null])
  | bool value =>
    refine (shows_plain ?_).congr (q := ¬(bool value).Finite) (p := False) (by simp [Finite.bool])
    cases value with
    | false => rw [render_false]; decide
    | true => rw [render_true]; decide
  | number n => rw [render_number]; exact shows_number n
  | string text =>
    rw [render_string]
    exact (isString_literal style.ascii text).shows.congr (by simp [Finite.string])
  | array items ih =>
    cases items with
    | nil => rw [render_noItems]; exact (shows_plain (by decide)).congr (by simp [finite_array])
    | cons item items =>
      have first := ih item List.mem_cons_self (depth + 1)
      have others := shows_items fun i mem => ih i (List.mem_cons_of_mem item mem) (depth + 1)
      have inner := first.append (others.before (shows_closing style depth ']' (by decide)))
      rw [render_array]
      refine (((isGap_edge style (depth + 1)).shows.beside inner).cons (by decide)).congr ?_
      simp only [finite_array, List.forall_mem_cons, not_and_or, not_forall, exists_prop]
  | object fields ih =>
    cases fields with
    | nil => rw [render_noFields]; exact (shows_plain (by decide)).congr (by simp [finite_object])
    | cons field fields =>
      have first := shows_field (ih field List.mem_cons_self (depth + 1))
      have others := shows_fields fun f mem => ih f (List.mem_cons_of_mem field mem) (depth + 1)
      have inner := first.append (others.before (shows_closing style depth '\x7d' (by decide)))
      rw [render_object]
      refine (((isGap_edge style (depth + 1)).shows.beside inner).cons (by decide)).congr ?_
      simp only [finite_object, List.forall_mem_cons, not_and_or, not_forall, exists_prop]

/-- The text of a document is a JSON text iff the document is finite. -/
theorem isJsonText_render (style : Style) (document : Json) :
    IsJsonText (document.render style 0) ↔ document.Finite := by
  constructor
  · intro isText
    exact not_not.mp ((isText.shows.unique (shows_render style 0 document)).not.mp not_false)
  · intro finite
    exact ⟨[], document.render style 0, [], isGap_nil, derives_render 0 finite, isGap_nil, by simp⟩

end Json
end DesignSystem
