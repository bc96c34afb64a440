import DesignSystem.Proofs.Json.Meaning

/-! # Texts are read for what they mean

A text is read iff it means a document, and then it is read as that document. Where it leaves the
grammar, reading stops with a syntax fault.

* `Json.readsMeaning`: what is read is meant.
* `Json.Means.reads`: what is meant is read, unless the reader refuses a part of it.
* `Json.read_eq_ok`, `Json.not_meansText_of_malformed`: whole texts.
-/

namespace DesignSystem
set_option autoImplicit false

namespace Json

/-! ## What is read is meant -/

theorem exists_gap (text : List Char) : ∃ gap, IsGap gap ∧ text = gap ++ skipBlanks text :=
  ⟨text.takeWhile isBlank, fun c mem => List.all_eq_true.mp List.all_takeWhile c mem,
    List.takeWhile_append_dropWhile.symm⟩

theorem IsGap.append {first second : List Char} (here : IsGap first) (there : IsGap second) :
    IsGap (first ++ second) :=
  List.forall_mem_append.mpr ⟨here, there⟩

theorem Means.indent_items {dialect : Dialect} {text gap : List Char} {items : List Json}
    (means : Means dialect text (.items items)) (blank : IsGap gap) :
    Means dialect (gap ++ text) (.items items) := by
  cases means with
  | item start value finish =>
    rw [← List.append_assoc]
    exact .item (blank.append start) value finish
  | items start value finish rest =>
    rw [← List.append_assoc]
    exact .items (blank.append start) value finish rest

theorem Means.indent_fields {dialect : Dialect} {text gap : List Char} {fields : Fields}
    (means : Means dialect text (.fields fields)) (blank : IsGap gap) :
    Means dialect (gap ++ text) (.fields fields) := by
  cases means with
  | field start quotes first second value finish =>
    rw [← List.append_assoc]
    exact .field (blank.append start) quotes first second value finish
  | fields start quotes first second value finish rest =>
    rw [← List.append_assoc]
    exact .fields (blank.append start) quotes first second value finish rest

theorem readNumber_eq_ok {text rest : List Char} {document : Json} {words : Bool}
    (h : readNumber text = .ok (document, rest)) :
    ∃ used, Means ⟨words, false⟩ used (.value document) ∧ text = used ++ rest := by
  unfold readNumber at h
  split at h
  · cases h
  · next parts after numeral =>
    obtain ⟨used, spells, rfl⟩ := numeralParts?_eq_some numeral
    obtain ⟨number, value, h⟩ := bind_eq_ok h
    cases h
    by_cases long : parts.IsLong
    · rw [NumeralParts.number_of_long long] at value
      cases value
    · rw [NumeralParts.number_of_short long] at value
      cases value
      exact ⟨used, .number parts spells fun h => absurd h long, rfl⟩

theorem readSpecial_eq_ok {acceptSpecial : Bool} {word : SpecialWord} {following rest : List Char}
    {document : Json} (h : readSpecial acceptSpecial word following = .ok (document, rest)) :
    Means ⟨acceptSpecial, false⟩ word.text.toList (.value document) ∧ following = rest := by
  unfold readSpecial at h
  split at h
  · next accepts =>
    cases h
    exact ⟨.word word accepts, rfl⟩
  · cases h

theorem readScalar_eq_ok {acceptSpecial : Bool} {text rest : List Char} {document : Json}
    (h : readScalar acceptSpecial text = .ok (document, rest)) :
    ∃ used, Means ⟨acceptSpecial, false⟩ used (.value document) ∧ text = used ++ rest := by
  unfold readScalar at h
  split at h
  · obtain ⟨⟨value, others⟩, string, h⟩ := bind_eq_ok h
    cases h
    obtain ⟨used, quotes, rfl⟩ := readString_eq_ok string
    exact ⟨_, .string quotes, by simp⟩
  · cases h
    exact ⟨_, .null, rfl⟩
  · cases h
    exact ⟨_, .true, rfl⟩
  · cases h
    exact ⟨_, .false, rfl⟩
  · obtain ⟨means, rfl⟩ := readSpecial_eq_ok h
    exact ⟨_, means, rfl⟩
  · obtain ⟨means, rfl⟩ := readSpecial_eq_ok h
    exact ⟨_, means, rfl⟩
  · obtain ⟨means, rfl⟩ := readSpecial_eq_ok h
    exact ⟨_, means, rfl⟩
  · exact readNumber_eq_ok h

/-- What is read with some fuel is meant. -/
structure ReadsMeaning (acceptSpecial : Bool) (fuel : Nat) : Prop where
  value : ∀ text rest document, readValue acceptSpecial fuel text = .ok (document, rest) →
    ∃ used, Means ⟨acceptSpecial, false⟩ used (.value document) ∧ text = used ++ rest
  items : ∀ text rest items, readItems acceptSpecial fuel text = .ok (items, rest) →
    ∃ used, Means ⟨acceptSpecial, false⟩ used (.items items) ∧ text = used ++ ']' :: rest
  fields : ∀ text rest fields, readFields acceptSpecial fuel text = .ok (fields, rest) →
    ∃ used, Means ⟨acceptSpecial, false⟩ used (.fields fields) ∧ text = used ++ '\x7d' :: rest

namespace ReadsMeaning
variable {acceptSpecial : Bool} {fuel : Nat}

theorem value_succ (below : ReadsMeaning acceptSpecial fuel) {text rest : List Char}
    {document : Json} (h : readValue acceptSpecial (fuel + 1) text = .ok (document, rest)) :
    ∃ used, Means ⟨acceptSpecial, false⟩ used (.value document) ∧ text = used ++ rest := by
  unfold readValue at h
  split at h
  · cases h
  · next inner same =>
    cases same
    obtain ⟨gap, blank, skips⟩ := exists_gap inner
    split at h
    · next closing =>
      cases h
      exact ⟨_, .noFields blank, by rw [skips, closing]; simp⟩
    · obtain ⟨⟨fields, last⟩, reads, ends⟩ := bind_eq_ok h
      cases ends
      obtain ⟨used, means, found⟩ := below.fields _ _ _ reads
      exact ⟨_, .object (means.indent_fields blank), by rw [skips, found]; simp⟩
  · next inner same =>
    cases same
    obtain ⟨gap, blank, skips⟩ := exists_gap inner
    split at h
    · next closing =>
      cases h
      exact ⟨_, .noItems blank, by rw [skips, closing]; simp⟩
    · obtain ⟨⟨items, last⟩, reads, ends⟩ := bind_eq_ok h
      cases ends
      obtain ⟨used, means, found⟩ := below.items _ _ _ reads
      exact ⟨_, .array (means.indent_items blank), by rw [skips, found]; simp⟩
  · exact readScalar_eq_ok h

theorem items_succ (below : ReadsMeaning acceptSpecial fuel) {text rest : List Char}
    {items : List Json} (h : readItems acceptSpecial (fuel + 1) text = .ok (items, rest)) :
    ∃ used, Means ⟨acceptSpecial, false⟩ used (.items items) ∧ text = used ++ ']' :: rest := by
  unfold readItems at h
  obtain ⟨⟨item, after⟩, reads, follows⟩ := bind_eq_ok h
  obtain ⟨used, means, rfl⟩ := below.value _ _ _ reads
  obtain ⟨gap, blank, skips⟩ := exists_gap after
  dsimp only at follows
  split at follows
  · next closing =>
    cases follows
    exact ⟨_, .item isGap_nil means blank, by rw [skips, closing]; simp⟩
  · next others comma =>
    obtain ⟨⟨more, last⟩, readsMore, ends⟩ := bind_eq_ok follows
    cases ends
    obtain ⟨inner, meansMore, found⟩ := below.items _ _ _ readsMore
    obtain ⟨space, spaces, skipsMore⟩ := exists_gap others
    refine ⟨_, .items isGap_nil means blank (meansMore.indent_items spaces), ?_⟩
    rw [skips, comma, skipsMore, found]
    simp
  · cases follows

theorem fields_succ (below : ReadsMeaning acceptSpecial fuel) {text rest : List Char}
    {fields : Fields} (h : readFields acceptSpecial (fuel + 1) text = .ok (fields, rest)) :
    ∃ used, Means ⟨acceptSpecial, false⟩ used (.fields fields) ∧
      text = used ++ '\x7d' :: rest := by
  unfold readFields at h
  split at h
  · cases h
  · next quoted same =>
    cases same
    obtain ⟨⟨name, after⟩, string, names⟩ := bind_eq_ok h
    obtain ⟨written, quotes, rfl⟩ := readString_eq_ok string
    obtain ⟨colon, first, skipsColon⟩ := exists_gap after
    dsimp only at names
    split at names
    · next afterColon colons =>
      obtain ⟨space, second, skipsSpace⟩ := exists_gap afterColon
      obtain ⟨⟨value, afterValue⟩, reads, follows⟩ := bind_eq_ok names
      obtain ⟨used, means, found⟩ := below.value _ _ _ reads
      obtain ⟨gap, blank, skips⟩ := exists_gap afterValue
      dsimp only at follows
      split at follows
      · next closing =>
        cases follows
        refine ⟨_, .field isGap_nil quotes first second means blank, ?_⟩
        rw [skipsColon, colons, skipsSpace, found, skips, closing]
        simp
      · next others comma =>
        obtain ⟨⟨more, last⟩, readsMore, ends⟩ := bind_eq_ok follows
        cases ends
        obtain ⟨inner, meansMore, foundMore⟩ := below.fields _ _ _ readsMore
        obtain ⟨spaceMore, spaces, skipsMore⟩ := exists_gap others
        refine ⟨_, .fields isGap_nil quotes first second means blank
          (meansMore.indent_fields spaces), ?_⟩
        rw [skipsColon, colons, skipsSpace, found, skips, comma, skipsMore, foundMore]
        simp
      · cases follows
    · cases names
  · cases h

end ReadsMeaning

theorem readsMeaning (acceptSpecial : Bool) (fuel : Nat) : ReadsMeaning acceptSpecial fuel := by
  induction fuel with
  | zero =>
    refine ⟨fun _ _ _ h => ?_, fun _ _ _ h => ?_, fun _ _ _ h => ?_⟩
    · cases h
    · cases h
    · cases h
  | succ fuel below =>
    exact ⟨fun _ _ _ => below.value_succ, fun _ _ _ => below.items_succ,
      fun _ _ _ => below.fields_succ⟩

/-! ## What is meant is read -/

theorem NumeralParts.Spells.opens {parts : NumeralParts} {text : List Char}
    (spells : parts.Spells text) : OpensNumber text := by
  obtain ⟨isWhole, -, exponent, -, rfl⟩ := spells
  exact opensNumber_signed isWhole _ _

theorem Means.opens {dialect : Dialect} {text : List Char} {document : Json}
    (means : Means dialect text (.value document)) : OpensDocument text := by
  cases means with
  | number parts spells _ => exact spells.opens.document
  | word word _ => cases word <;> exact ⟨_, _, rfl, by decide⟩
  | null | true | false | string | noItems | array | noFields | object =>
    exact ⟨_, _, rfl, by decide⟩

theorem OpensDocument.skipBlanks_append {text gap : List Char} (opens : OpensDocument text)
    (blank : IsGap gap) (rest : List Char) :
    Json.skipBlanks (gap ++ (text ++ rest)) = text ++ rest := by
  rw [Json.skipBlanks_append blank]
  exact (opens.append rest).skipBlanks

theorem skipBlanks_closing {gap : List Char} (blank : IsGap gap) {c : Char}
    (closing : isBlank c = false) (rest : List Char) : skipBlanks (gap ++ c :: rest) = c :: rest :=
  (skipBlanks_append blank _).trans (skipBlanks_cons closing rest)

theorem IsGap.ends {gap rest : List Char} (blank : IsGap gap) (ends : EndsNumeral rest) :
    EndsNumeral (gap ++ rest) := by
  cases gap with
  | nil => exact ends
  | cons c gap =>
    have first := blank c List.mem_cons_self
    simp only [isBlank, Bool.or_eq_true, beq_iff_eq] at first
    rcases first with ((rfl | rfl) | rfl) | rfl <;> exact .cons _ (by decide)

/-- The items of an array begin as a document does, behind blanks. -/
theorem Means.opens_items {dialect : Dialect} {text : List Char} {items : List Json}
    (means : Means dialect text (.items items)) (rest : List Char) :
    OpensDocument (skipBlanks (text ++ rest)) := by
  cases means with
  | item start inner _ | items start inner _ _ =>
    rw [List.append_assoc, List.append_assoc, inner.opens.skipBlanks_append start]
    exact inner.opens.append _

/-- The fields of an object begin with a quote, behind blanks. -/
theorem Means.opens_fields {dialect : Dialect} {text : List Char} {fields : Fields}
    (means : Means dialect text (.fields fields)) (rest : List Char) :
    OpensDocument (skipBlanks (text ++ rest)) := by
  cases means with
  | field start | fields start =>
    rw [List.append_assoc, List.cons_append, skipBlanks_closing start (by decide)]
    exact ⟨_, _, rfl, by decide⟩

section
variable (acceptSpecial : Bool) (dialect : Dialect)

/-- A stop at what a dialect has and the reader does not take. -/
def Stop.IsRefusal : Stop → Prop
  | .syntaxFault _ _ => False
  | .specialWord _ => acceptSpecial = false ∧ dialect.words = true
  | .tooManyDigits _ => dialect.long = true

/-- The result is a value, unless the reader refuses a part of it. -/
def Yields {α : Type} (result : Except Stop α) (value : α) : Prop :=
  result = .ok value ∨ ∃ stop : Stop, result = .error stop ∧ stop.IsRefusal acceptSpecial dialect

/-- What a part of a text means is read from it, before a text that does not continue it. -/
def Reads (text : List Char) : Content → Prop
  | .value document => ∀ fuel rest, text.length ≤ fuel → EndsNumeral rest →
      Yields acceptSpecial dialect (readValue acceptSpecial fuel (text ++ rest)) (document, rest)
  | .items items => ∀ fuel rest, text.length < fuel → Yields acceptSpecial dialect
      (readItems acceptSpecial fuel (skipBlanks (text ++ ']' :: rest))) (items, rest)
  | .fields fields => ∀ fuel rest, text.length < fuel → Yields acceptSpecial dialect
      (readFields acceptSpecial fuel (skipBlanks (text ++ '\x7d' :: rest))) (fields, rest)

end

section
variable {acceptSpecial : Bool} {dialect : Dialect}

theorem Yields.bind {α β : Type} {first : Except Stop α} {next : α → Except Stop β} {value : α}
    {result : β} (here : Yields acceptSpecial dialect first value)
    (there : Yields acceptSpecial dialect (next value) result) :
    Yields acceptSpecial dialect (first >>= next) result := by
  rcases here with rfl | ⟨stop, rfl, refuses⟩
  · exact there
  · exact .inr ⟨stop, rfl, refuses⟩

theorem Yields.map {α β : Type} {first : Except Stop α} {f : α → β} {value : α}
    (here : Yields acceptSpecial dialect first value) :
    Yields acceptSpecial dialect (first.map f) (f value) := by
  rcases here with rfl | ⟨stop, rfl, refuses⟩
  · exact .inl rfl
  · exact .inr ⟨stop, rfl, refuses⟩

theorem reads_scalar {text : List Char} {document : Json}
    (opens : ∃ c cs, text = c :: cs ∧ c ≠ '\x7b' ∧ c ≠ '[')
    (scalar : ∀ rest, EndsNumeral rest →
      Yields acceptSpecial dialect (readScalar acceptSpecial (text ++ rest)) (document, rest)) :
    Reads acceptSpecial dialect text (.value document) := by
  intro fuel rest hf hr
  obtain ⟨c, cs, rfl, brace, bracket⟩ := opens
  rw [List.length_cons] at hf
  have value : readValue acceptSpecial fuel (c :: cs ++ rest) = readScalar acceptSpecial _ :=
    readValue_scalar (by omega) (fun _ e => brace (List.cons.inj e).1)
      (fun _ e => bracket (List.cons.inj e).1)
  rw [value]
  exact scalar rest hr

theorem reads_word (word : SpecialWord) (accepted : dialect.words = true) :
    Reads acceptSpecial dialect word.text.toList (.value (.number (.float word.value))) := by
  refine reads_scalar (by cases word <;> exact ⟨_, _, rfl, by decide⟩) fun rest _ => ?_
  have scalar : readScalar acceptSpecial (word.text.toList ++ rest) =
      readSpecial acceptSpecial word rest := by cases word <;> rfl
  rw [scalar]
  cases acceptSpecial with
  | true => exact .inl rfl
  | false => exact .inr ⟨.specialWord word, rfl, rfl, accepted⟩

theorem reads_number {parts : NumeralParts} {text : List Char} (spells : parts.Spells text)
    (accepted : parts.IsLong → dialect.long = true) :
    Reads acceptSpecial dialect text (.value (.number parts.value)) := by
  refine reads_scalar ?_ fun rest hr => ?_
  · obtain ⟨c, cs, digit, opens | opens⟩ := spells.opens
    · exact ⟨c, cs, opens, isDigit_ne digit rfl, isDigit_ne digit rfl⟩
    · exact ⟨'-', c :: cs, opens, by decide⟩
  · have numeral : readScalar acceptSpecial (text ++ rest) =
        parts.number.map fun number => (.number number, rest) := by
      rw [readScalar_number _ (spells.opens.append rest), readNumber]
      simp only [numeralParts?_spells spells hr]
      cases parts.number <;> rfl
    rw [numeral]
    by_cases long : parts.IsLong
    · rw [NumeralParts.number_of_long long]
      exact .inr ⟨_, rfl, accepted long⟩
    · rw [NumeralParts.number_of_short long]
      exact .inl rfl

theorem reads_string {text : List Char} {value : Text} (quotes : Quotes text value.points) :
    Reads acceptSpecial dialect ('"' :: (text ++ ['"'])) (.value (.string value)) := by
  refine reads_scalar ⟨_, _, rfl, by decide⟩ fun rest _ => .inl ?_
  simp only [List.cons_append, List.append_assoc, List.nil_append, readScalar,
    readString_quotes quotes]
  rfl

/-- The last item of an array is read up to the closing bracket. -/
theorem yields_item {fuel : Nat} {text after rest : List Char} {item : Json}
    (value : Yields acceptSpecial dialect (readValue acceptSpecial fuel text) (item, after))
    (closing : skipBlanks after = ']' :: rest) :
    Yields acceptSpecial dialect (readItems acceptSpecial (fuel + 1) text) ([item], rest) := by
  rw [readItems]
  refine value.bind ?_
  simp only [closing]
  exact .inl rfl

theorem yields_items {fuel : Nat} {text after others rest : List Char} {item : Json}
    {items : List Json}
    (value : Yields acceptSpecial dialect (readValue acceptSpecial fuel text) (item, after))
    (comma : skipBlanks after = ',' :: others)
    (more : Yields acceptSpecial dialect (readItems acceptSpecial fuel (skipBlanks others))
      (items, rest)) :
    Yields acceptSpecial dialect (readItems acceptSpecial (fuel + 1) text)
      (item :: items, rest) := by
  rw [readItems]
  refine value.bind ?_
  simp only [comma]
  exact more.bind (.inl rfl)

theorem yields_field {fuel : Nat} {spelled afterName afterColon after rest : List Char}
    {name : Text} {value : Json} (quotes : Quotes spelled name.points)
    (colon : skipBlanks afterName = ':' :: afterColon)
    (inner : Yields acceptSpecial dialect
      (readValue acceptSpecial fuel (skipBlanks afterColon)) (value, after))
    (closing : skipBlanks after = '\x7d' :: rest) :
    Yields acceptSpecial dialect
      (readFields acceptSpecial (fuel + 1) ('"' :: (spelled ++ '"' :: afterName)))
      ([(name.shown, value)], rest) := by
  rw [readFields, readString_quotes quotes]
  refine (Yields.bind (.inl rfl) ?_)
  simp only [colon]
  refine inner.bind ?_
  simp only [closing]
  exact .inl rfl

theorem yields_fields {fuel : Nat} {spelled afterName afterColon after others rest : List Char}
    {name : Text} {value : Json} {fields : Fields} (quotes : Quotes spelled name.points)
    (colon : skipBlanks afterName = ':' :: afterColon)
    (inner : Yields acceptSpecial dialect
      (readValue acceptSpecial fuel (skipBlanks afterColon)) (value, after))
    (comma : skipBlanks after = ',' :: others)
    (more : Yields acceptSpecial dialect (readFields acceptSpecial fuel (skipBlanks others))
      (fields, rest)) :
    Yields acceptSpecial dialect
      (readFields acceptSpecial (fuel + 1) ('"' :: (spelled ++ '"' :: afterName)))
      ((name.shown, value) :: fields, rest) := by
  rw [readFields, readString_quotes quotes]
  refine (Yields.bind (.inl rfl) ?_)
  simp only [colon]
  refine inner.bind ?_
  simp only [comma]
  exact more.bind (.inl rfl)

/-! A part of a text takes fuel, so each is read by one call at least. -/

theorem reads_value {text : List Char} {document : Json} (present : text ≠ [])
    (h : ∀ fuel rest, text.length ≤ fuel + 1 → Yields acceptSpecial dialect
      (readValue acceptSpecial (fuel + 1) (text ++ rest)) (document, rest)) :
    Reads acceptSpecial dialect text (.value document) := by
  intro fuel rest hf _
  have positive := (List.length_pos_of_ne_nil present).trans_le hf
  obtain ⟨fuel, rfl⟩ := Nat.exists_eq_add_one.mpr positive
  exact h fuel rest hf

theorem reads_items {text : List Char} {items : List Json}
    (h : ∀ fuel rest, text.length ≤ fuel → Yields acceptSpecial dialect
      (readItems acceptSpecial (fuel + 1) (skipBlanks (text ++ ']' :: rest))) (items, rest)) :
    Reads acceptSpecial dialect text (.items items) := by
  intro fuel rest hf
  obtain ⟨fuel, rfl⟩ := Nat.exists_eq_add_one.mpr (Nat.zero_lt_of_lt hf)
  exact h fuel rest (Nat.le_of_lt_succ hf)

theorem reads_fields {text : List Char} {fields : Fields}
    (h : ∀ fuel rest, text.length ≤ fuel → Yields acceptSpecial dialect
      (readFields acceptSpecial (fuel + 1) (skipBlanks (text ++ '\x7d' :: rest))) (fields, rest)) :
    Reads acceptSpecial dialect text (.fields fields) := by
  intro fuel rest hf
  obtain ⟨fuel, rfl⟩ := Nat.exists_eq_add_one.mpr (Nat.zero_lt_of_lt hf)
  exact h fuel rest (Nat.le_of_lt_succ hf)

/-- What a text means is read from it, unless the reader refuses a part of it. -/
theorem Means.reads (acceptSpecial : Bool) {text : List Char} {content : Content}
    (means : Means dialect text content) : Reads acceptSpecial dialect text content := by
  induction means with
  | null => exact reads_scalar ⟨_, _, rfl, by decide⟩ fun _ _ => .inl rfl
  | true => exact reads_scalar ⟨_, _, rfl, by decide⟩ fun _ _ => .inl rfl
  | false => exact reads_scalar ⟨_, _, rfl, by decide⟩ fun _ _ => .inl rfl
  | word word accepted => exact reads_word word accepted
  | number parts spells accepted => exact reads_number spells accepted
  | string quotes => exact reads_string quotes
  | @noItems gap blank =>
    refine reads_value (List.cons_ne_nil _ _) fun fuel rest _ => ?_
    have closing : skipBlanks (gap ++ ']' :: rest) = ']' :: rest :=
      skipBlanks_closing blank (by decide) rest
    simp only [List.cons_append, List.append_assoc, List.nil_append, readValue, closing]
    exact .inl rfl
  | array inner ih =>
    refine reads_value (List.cons_ne_nil _ _) fun fuel rest hf => ?_
    simp only [List.length_cons, List.length_append] at hf
    simp only [List.cons_append, List.append_assoc, List.nil_append]
    rw [readValue_bracket rfl (inner.opens_items _)]
    exact (ih fuel rest (by omega)).map
  | @noFields gap blank =>
    refine reads_value (List.cons_ne_nil _ _) fun fuel rest _ => ?_
    have closing : skipBlanks (gap ++ '\x7d' :: rest) = '\x7d' :: rest :=
      skipBlanks_closing blank (by decide) rest
    simp only [List.cons_append, List.append_assoc, List.nil_append, readValue, closing]
    exact .inl rfl
  | object inner ih =>
    refine reads_value (List.cons_ne_nil _ _) fun fuel rest hf => ?_
    simp only [List.length_cons, List.length_append] at hf
    simp only [List.cons_append, List.append_assoc, List.nil_append]
    rw [readValue_brace rfl (inner.opens_fields _)]
    exact (ih fuel rest (by omega)).map
  | item start inner finish ih =>
    refine reads_items fun fuel rest hf => ?_
    simp only [List.length_append] at hf
    rw [List.append_assoc, List.append_assoc, inner.opens.skipBlanks_append start]
    exact yields_item (ih fuel _ (by omega) (finish.ends (.cons _ (by decide))))
      (skipBlanks_closing finish (by decide) rest)
  | items start inner finish more ih ihMore =>
    refine reads_items fun fuel rest hf => ?_
    simp only [List.length_append, List.length_cons] at hf
    simp only [List.append_assoc, List.cons_append]
    rw [inner.opens.skipBlanks_append start]
    exact yields_items (ih fuel _ (by omega) (finish.ends (.cons _ (by decide))))
      (skipBlanks_closing finish (by decide) _) (ihMore fuel rest (by omega))
  | field start quotes first second inner finish ih =>
    refine reads_fields fun fuel rest hf => ?_
    simp only [List.length_append, List.length_cons] at hf
    simp only [List.append_assoc, List.cons_append]
    rw [skipBlanks_closing start (by decide)]
    refine yields_field quotes (skipBlanks_closing first (by decide) _) ?_
      (skipBlanks_closing finish (by decide) rest)
    rw [inner.opens.skipBlanks_append second]
    exact ih fuel _ (by omega) (finish.ends (.cons _ (by decide)))
  | fields start quotes first second inner finish more ih ihMore =>
    refine reads_fields fun fuel rest hf => ?_
    simp only [List.length_append, List.length_cons] at hf
    simp only [List.append_assoc, List.cons_append]
    rw [skipBlanks_closing start (by decide)]
    refine yields_fields quotes (skipBlanks_closing first (by decide) _) ?_
      (skipBlanks_closing finish (by decide) _) (ihMore fuel rest (by omega))
    rw [inner.opens.skipBlanks_append second]
    exact ih fuel _ (by omega) (finish.ends (.cons _ (by decide)))

/-- A reader refuses nothing of what it takes itself. -/
theorem Yields.eq_ok {α : Type} {result : Except Stop α} {value : α}
    (yields : Yields acceptSpecial ⟨acceptSpecial, false⟩ result value) : result = .ok value := by
  rcases yields with rfl | ⟨stop, rfl, refuses⟩
  · rfl
  · cases stop with
    | syntaxFault => exact refuses.elim
    | specialWord =>
      obtain ⟨rejects, accepts⟩ := refuses
      cases rejects.symm.trans accepts
    | tooManyDigits => cases refuses

theorem readValue_of_means {text : List Char} {document : Json}
    (means : Means ⟨acceptSpecial, false⟩ text (.value document)) {fuel : Nat}
    (hf : text.length ≤ fuel) {rest : List Char} (hr : EndsNumeral rest) :
    readValue acceptSpecial fuel (text ++ rest) = .ok (document, rest) :=
  (means.reads acceptSpecial fuel rest hf hr).eq_ok

/-! ## Whole texts -/

theorem MeansText.head {text : List Char} {document : Json}
    (means : MeansText dialect text document) : text.head? ≠ some '\uFEFF' := by
  obtain ⟨before, value, after, start, inner, -, rfl⟩ := means
  cases before with
  | nil =>
    obtain ⟨c, cs, rfl, -, -, -, mark⟩ := inner.opens
    exact fun e => mark (Option.some.inj e)
  | cons c before =>
    have first := start c List.mem_cons_self
    intro e
    cases e
    exact absurd first (by decide)

theorem skipBlanks_gap {gap : List Char} (blank : IsGap gap) : skipBlanks gap = [] := by
  rw [← List.append_nil gap, skipBlanks_append blank]
  rfl

theorem MeansText.reads (acceptSpecial : Bool) {text : List Char} {document : Json}
    (means : MeansText dialect text document) :
    Yields acceptSpecial dialect (readDocument acceptSpecial text) document := by
  have mark := means.head
  obtain ⟨before, value, after, start, inner, finish, rfl⟩ := means
  have follows : EndsNumeral after := by
    simpa using finish.ends endsNumeral_nil
  have read := inner.reads acceptSpecial (2 * (before ++ (value ++ after)).length + 2) after
    (by simp only [List.length_append]; omega) follows
  rw [readDocument, if_neg mark, inner.opens.skipBlanks_append start]
  refine read.bind ?_
  simp only [skipBlanks_gap finish]
  exact .inl rfl

theorem meansText_of_readDocument {text : List Char} {document : Json}
    (h : readDocument acceptSpecial text = .ok document) :
    MeansText ⟨acceptSpecial, false⟩ text document := by
  unfold readDocument at h
  dsimp only at h
  split at h
  · cases h
  obtain ⟨⟨found, rest⟩, value, finished⟩ := bind_eq_ok h
  dsimp only at finished
  split at finished
  · next ends =>
    cases finished
    obtain ⟨before, start, skips⟩ := exists_gap text
    obtain ⟨used, means, same⟩ := (readsMeaning acceptSpecial _).value _ _ _ value
    obtain ⟨after, finish, last⟩ := exists_gap rest
    refine ⟨before, used, rest, start, means, ?_, by rw [skips, same]⟩
    rwa [last, ends, List.append_nil]
  · cases finished

end

/-- A text is read as a document iff it means it, words for numbers where they are accepted. -/
theorem read_eq_ok {acceptSpecial : Bool} {text : List Char} {document : Json} :
    read acceptSpecial text = .ok document ↔
      MeansText ⟨acceptSpecial, false⟩ text document := by
  rw [read]
  constructor
  · intro h
    split at h
    · next reads =>
      cases h
      exact meansText_of_readDocument reads
    · cases h
  · intro means
    rw [(means.reads acceptSpecial).eq_ok]

/-- A text with a syntax fault means nothing, whatever words and integers it may hold. -/
theorem not_meansText_of_malformed {acceptSpecial : Bool} {text : List Char}
    {fault : SyntaxFault} {line column : Nat}
    (h : read acceptSpecial text = .error (.malformed fault line column)) (dialect : Dialect)
    (document : Json) : ¬MeansText dialect text document := by
  intro means
  rw [read] at h
  rcases means.reads acceptSpecial with reads | ⟨stop, stops, refuses⟩
  · rw [reads] at h
    cases h
  · rw [stops] at h
    cases stop with
    | syntaxFault => exact refuses
    | specialWord => cases h
    | tooManyDigits => cases h

end Json
end DesignSystem
