import DesignSystem.Issue
import DesignSystem.Proofs.Json.Pointer

/-! # Texts of pointers, and what is below them

The text of one pointer is the text of another one, or goes on after it with a slash, if the
spellings of the steps begin alike. Neither names that begin alike nor slashes in names matter.

* `Pointer.covers`: a text is located at a pointer or below it.
* `Pointer.covers_text_iff`: the texts that a pointer covers, by the spellings of steps.
* `Report.within`, `Report.outside`: the issues of a report at a pointer and below it, and the
  others.
-/

namespace DesignSystem
set_option autoImplicit false

/-- The text of a step without the slash before it. -/
def Step.word (step : Step) : List Char := step.spelling.toList.flatMap escapedStepChar

theorem Step.slash_not_mem_word (step : Step) : '/' ∉ step.word := slash_not_mem_escaped _

theorem Step.spelling_index_injective :
    Function.Injective fun position => (Step.index position).spelling := by
  intro position other same
  have read := Pointer.arrayIndex?_spelling position
  rw [show (Step.index position).spelling = _ from same, Pointer.arrayIndex?_spelling] at read
  exact (Option.some.inj read).symm

namespace Pointer
variable {pointer below : Pointer}

theorem text_eq_steps (nonempty : pointer ≠ []) : pointer.text = pointer.steps := by
  rw [text, if_neg (by simpa using nonempty)]

theorem steps_eq_words (pointer : Pointer) :
    pointer.steps.toList = (pointer.map Step.word).flatMap ('/' :: ·) := by
  rw [steps_toList, List.flatMap_map]
  rfl

/-- Nothing stands before the first slash, and a word after each. -/
theorem splitOn_steps (pointer : Pointer) :
    pointer.steps.toList.splitOn '/' = [] :: pointer.map Step.word := by
  cases pointer with
  | nil => rfl
  | cons step rest =>
    have noSlash : ∀ word ∈ (step :: rest).map Step.word, '/' ∉ word :=
      List.forall_mem_map.mpr fun step _ => step.slash_not_mem_word
    rw [steps_eq_words, List.map_cons, slashed_eq_intercalate, ← List.nil_append (_ :: _),
      List.splitOn_append_cons_of_beq _ _ (by decide), ← List.map_cons (f := Step.word),
      List.splitOn_intercalate '/' noSlash (by simp)]
    rfl

/-- A text is that of a pointer, or goes on after it with a slash. -/
def covers (pointer : Pointer) (text : String) : Bool :=
  text == pointer.text || (pointer.text ++ "/").toList.isPrefixOf text.toList

theorem covers_iff {text : String} : pointer.covers text = true ↔
    text = pointer.text ∨ ∃ rest, text.toList = pointer.text.toList ++ '/' :: rest := by
  rw [covers, Bool.or_eq_true, beq_iff_eq, List.isPrefixOf_iff_prefix, String.toList_append]
  simp [List.IsPrefix, eq_comm]

/-- Pointers whose words begin alike. -/
theorem covers_text_iff_words (nonempty : pointer ≠ []) (belowNonempty : below ≠ []) :
    pointer.covers below.text = true ↔ pointer.map Step.word <+: below.map Step.word := by
  rw [covers_iff, text_eq_steps nonempty, text_eq_steps belowNonempty]
  constructor
  · have split := splitOn_steps below
    rintro (same | ⟨rest, longer⟩)
    · rw [same, splitOn_steps] at split
      exact (List.cons.inj split).2 ▸ List.prefix_rfl
    · rw [longer, List.splitOn_append_cons_of_beq _ _ (by decide), splitOn_steps] at split
      exact ⟨_, (List.cons.inj split).2⟩
  · rintro ⟨more, words⟩
    have longer : below.steps.toList = pointer.steps.toList ++ more.flatMap ('/' :: ·) := by
      rw [steps_eq_words, steps_eq_words, ← words, List.flatMap_append]
    cases more with
    | nil => exact .inl (String.toList_inj.mp (by simpa using longer))
    | cons word more => exact .inr ⟨_, longer⟩

theorem covers_text_iff (nonempty : pointer ≠ []) (belowNonempty : below ≠ []) :
    pointer.covers below.text = true ↔
      pointer.map Step.spelling <+: below.map Step.spelling := by
  have escaped : Function.Injective fun spelling : String =>
      spelling.toList.flatMap escapedStepChar := fun spelling other same => by
    have read := congrArg unescaped same
    rw [unescaped_escaped, unescaped_escaped] at read
    exact String.toList_inj.mp read
  rw [covers_text_iff_words nonempty belowNonempty, ← List.prefix_map_iff_of_injective escaped,
    List.map_map, List.map_map]
  rfl

end Pointer

/-! ## Issues below pointers -/

def Issue.isWithin (issue : Issue) (pointer : Pointer) : Bool := pointer.covers issue.place.text

theorem Issue.isWithin_iff {issue : Issue} {pointer below : Pointer}
    (place : issue.place = .pointer below) (nonempty : pointer ≠ [])
    (belowNonempty : below ≠ []) : issue.isWithin pointer = true ↔
      pointer.map Step.spelling <+: below.map Step.spelling := by
  rw [isWithin, place, Place.text, Pointer.covers_text_iff nonempty belowNonempty]

namespace Report

/-- The issues at a pointer and below it. -/
def within (report : Report) (pointer : Pointer) : List Issue :=
  report.issues.filter (·.isWithin pointer)

/-- The issues elsewhere. -/
def outside (report : Report) (pointer : Pointer) : List Issue :=
  report.issues.filter (!·.isWithin pointer)

/-- The issues at a pointer are the ones between those elsewhere. -/
theorem parts_of_append {before block after : List Issue} {pointer : Pointer}
    (elsewhere : ∀ issue ∈ before ++ after, issue.isWithin pointer = false)
    (here : ∀ issue ∈ block, issue.isWithin pointer = true) :
    (Report.mk (before ++ (block ++ after))).within pointer = block ∧
      (Report.mk (before ++ (block ++ after))).outside pointer = before ++ after := by
  rw [List.forall_mem_append] at elsewhere
  have apart : ∀ issues : List Issue, (∀ issue ∈ issues, issue.isWithin pointer = false) →
      issues.filter (·.isWithin pointer) = [] ∧
        issues.filter (!·.isWithin pointer) = issues := fun issues elsewhere => by
    rw [List.filter_eq_nil_iff, List.filter_eq_self]
    exact ⟨fun issue mem => by simp [elsewhere issue mem],
      fun issue mem => by simp [elsewhere issue mem]⟩
  have inside : block.filter (·.isWithin pointer) = block ∧
      block.filter (!·.isWithin pointer) = [] := by
    rw [List.filter_eq_self, List.filter_eq_nil_iff]
    exact ⟨here, fun issue mem => by simp [here issue mem]⟩
  simp [within, outside, List.filter_append, apart before elsewhere.1, apart after elsewhere.2,
    inside]

end Report
end DesignSystem
