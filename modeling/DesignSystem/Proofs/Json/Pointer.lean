import DesignSystem.Json.Pointer
import DesignSystem.Proofs.Number.Significant

/-! # Pointers are read back

A pointer's text is read token by token, as JSON pointers are: it is split at the slashes, and in
each token the escape of the slash is undone before that of the tilde.

* `Pointer.tokens?`: the tokens of a text.
* `Json.follow?`: the part of a document that tokens lead to.
* `Pointer.tokens?_text`: the text of a pointer has the spellings of its steps as tokens.
* `Pointer.follow?_of_resolve`: they lead to where the pointer leads.
-/

namespace DesignSystem
set_option autoImplicit false

/-! ## Reading tokens -/

/-- A text in which a character stands for each tilde with a mark after it. -/
def replaceEscape (mark character : Char) : List Char → List Char
  | [] => []
  | [c] => [c]
  | c :: next :: rest =>
    if c = '~' ∧ next = mark then character :: replaceEscape mark character rest
    else c :: replaceEscape mark character (next :: rest)

def unescaped (token : List Char) : List Char :=
  replaceEscape '0' '~' (replaceEscape '1' '/' token)

/-- The tokens of a pointer's text: none for the empty text, else one after each slash. -/
def Pointer.tokens? (text : String) : Option (List String) :=
  match text.toList with
  | [] => some []
  | '/' :: rest => some ((rest.splitOn '/').map fun token => .ofList (unescaped token))
  | _ => none

/-- The index that a token spells, as a numeral without leading zeros. -/
def arrayIndex? (token : String) : Option Nat :=
  let value := Nat.ofDigitChars 10 token.toList 0
  if digitsOf value = token.toList then some value else none

def Json.follow? : List String → Json → Option Json
  | [], document => some document
  | token :: rest, .object fields => (Fields.get? fields token).bind (follow? rest)
  | token :: rest, .array items =>
    (arrayIndex? token).bind fun position => items[position]?.bind (follow? rest)
  | _ :: _, _ => none

/-! ## Escapes -/

theorem replaceEscape_cons {mark character c : Char} (h : c ≠ '~') (rest : List Char) :
    replaceEscape mark character (c :: rest) = c :: replaceEscape mark character rest := by
  cases rest with
  | nil => rfl
  | cons next rest => simp [replaceEscape, h]

/-- The escape of the slash is undone; that of the tilde is left as it is. -/
theorem replaceEscape_slash (text : List Char) :
    replaceEscape '1' '/' (text.flatMap escapedStepChar) =
      text.flatMap fun c => if c = '~' then ['~', '0'] else [c] := by
  induction text with
  | nil => rfl
  | cons c text ih =>
    rw [List.flatMap_cons, List.flatMap_cons, ← ih, escapedStepChar]
    by_cases tilde : c = '~'
    · subst tilde
      simp [replaceEscape, replaceEscape_cons]
    · by_cases slash : c = '/'
      · subst slash
        simp [replaceEscape]
      · simp [tilde, slash, replaceEscape_cons]

theorem replaceEscape_tilde (text : List Char) :
    replaceEscape '0' '~' (text.flatMap fun c => if c = '~' then ['~', '0'] else [c]) = text := by
  induction text with
  | nil => rfl
  | cons c text ih =>
    rw [List.flatMap_cons]
    by_cases tilde : c = '~'
    · simp [tilde, replaceEscape, ih]
    · simp [tilde, replaceEscape_cons, ih]

theorem unescaped_escaped (text : List Char) :
    unescaped (text.flatMap escapedStepChar) = text := by
  rw [unescaped, replaceEscape_slash, replaceEscape_tilde]

theorem slash_not_mem_escaped (text : List Char) : '/' ∉ text.flatMap escapedStepChar := by
  intro mem
  obtain ⟨c, -, mem⟩ := List.mem_flatMap.mp mem
  unfold escapedStepChar at mem
  split at mem
  · simp at mem
  · split at mem
    · simp at mem
    · next slash =>
      rw [List.mem_singleton] at mem
      simp [← mem] at slash

/-! ## Texts of pointers -/

namespace Pointer

theorem steps_toList (pointer : Pointer) :
    pointer.steps.toList =
      pointer.flatMap fun step => '/' :: step.spelling.toList.flatMap escapedStepChar := by
  induction pointer with
  | nil => rfl
  | cons step rest ih => simp [steps, ih, Step.text, stepText]

/-- Words with a slash before each are a slash and the words with slashes between them. -/
theorem slashed_eq_intercalate (word : List Char) (words : List (List Char)) :
    (word :: words).flatMap ('/' :: ·) = '/' :: ['/'].intercalate (word :: words) := by
  induction words generalizing word with
  | nil => simp
  | cons next words ih =>
    rw [List.flatMap_cons, ih]
    simp [List.intercalate]

/-- The text of a pointer below the root is read as the spellings of its steps. -/
theorem tokens?_text {pointer : Pointer} (below : pointer ≠ []) :
    tokens? pointer.text = some (pointer.map Step.spelling) := by
  cases pointer with
  | nil => exact absurd rfl below
  | cons step rest =>
    have slashed : (text (step :: rest)).toList = '/' :: ['/'].intercalate
        ((step :: rest).map fun step => step.spelling.toList.flatMap escapedStepChar) := by
      rw [text, List.isEmpty_cons, if_neg Bool.false_ne_true, steps_toList, ← List.flatMap_map,
        List.map_cons, slashed_eq_intercalate]
    have noSlash : ∀ word ∈ (step :: rest).map fun step =>
        step.spelling.toList.flatMap escapedStepChar, '/' ∉ word := by
      rw [List.forall_mem_map]
      exact fun step _ => slash_not_mem_escaped _
    have split := List.splitOn_intercalate '/' noSlash (by simp)
    simp only [tokens?, slashed, split, List.map_map, Function.comp_def, unescaped_escaped,
      String.ofList_toList]

/-! ## Following pointers -/

theorem arrayIndex?_spelling (position : Nat) :
    arrayIndex? (Step.index position).spelling = some position := by
  have value : Nat.ofDigitChars 10 (digitsOf position) 0 = position :=
    Nat.ofDigitChars_ten_toDigits
  simp [arrayIndex?, Step.spelling, value]

theorem follow?_of_resolve {pointer : Pointer} {document part : Json}
    (h : pointer.resolve document = some part) :
    Json.follow? (pointer.map Step.spelling) document = some part := by
  induction pointer generalizing document with
  | nil => exact h
  | cons step rest ih =>
    cases step with
    | field name =>
      cases document with
      | object fields =>
        obtain ⟨next, found, resolves⟩ := Option.bind_eq_some_iff.mp h
        simp [Json.follow?, Step.spelling, found, ih resolves]
      | _ => cases h
    | index position =>
      cases document with
      | array items =>
        obtain ⟨next, found, resolves⟩ := Option.bind_eq_some_iff.mp h
        simp [Json.follow?, arrayIndex?_spelling, found, ih resolves]
      | _ => cases h

theorem resolve_append (pointer rest : Pointer) (document : Json) :
    (pointer ++ rest).resolve document = (pointer.resolve document).bind rest.resolve := by
  induction pointer generalizing document with
  | nil => rfl
  | cons step pointer ih =>
    cases step with
    | field name =>
      cases document with
      | object fields =>
        simp only [List.cons_append, resolve, Option.bind_assoc]
        exact congrArg _ (funext ih)
      | _ => rfl
    | index position =>
      cases document with
      | array items =>
        simp only [List.cons_append, resolve, Option.bind_assoc]
        exact congrArg _ (funext ih)
      | _ => rfl

end Pointer
end DesignSystem
