import DesignSystem.Proofs.Json.PointerOrder

/-! # Pointers are unambiguous

A pointer's text is built from the empty text by one step after the other, and the spellings of the
steps are read off it again.

* `Pointer.pieces`: what stands between the slashes of a text, without escapes.
* `Pointer.pieces_steps`: the pieces of a pointer's text are the spellings of its steps.
* `Pointer.steps_eq_iff`, `Pointer.steps_below_iff`: when two texts are the same, and when one goes
  on below the other.
* `Pointer.steps_unambiguous`: all of this together.
-/

namespace DesignSystem.Pointer
set_option autoImplicit false

/-- The pieces between the slashes of a text. In each the escape of the slash is undone first, and
then that of the tilde. -/
def pieces (text : String) : List String :=
  (text.toList.splitOn '/').map fun piece => .ofList (unescaped piece)

variable {pointer other : Pointer}

/-! ## Building texts -/

/-- One step after the other is put at the end of a text. -/
theorem foldl_stepText (pointer : Pointer) (base : String) :
    pointer.foldl (fun base step => base ++ stepText step.spelling) base =
      base ++ pointer.steps := by
  induction pointer generalizing base with
  | nil => simp [steps]
  | cons step rest ih => rw [List.foldl_cons, ih, steps, Step.text, String.append_assoc]

theorem steps_append (pointer more : Pointer) :
    (pointer ++ more).steps = pointer.steps ++ more.steps := by
  induction pointer with
  | nil => simp [steps]
  | cons step rest ih => rw [List.cons_append, steps, steps, ih, String.append_assoc]

/-! ## Reading texts -/

theorem unescaped_word (step : Step) : unescaped step.word = step.spelling.toList :=
  unescaped_escaped _

/-- The first piece of a pointer's text is empty; the others are the spellings of its steps. -/
theorem pieces_steps (pointer : Pointer) :
    pieces pointer.steps = "" :: pointer.map Step.spelling := by
  rw [pieces, splitOn_steps, List.map_cons, List.map_map]
  refine congrArg ("" :: ·) (List.map_congr_left fun step _ => ?_)
  rw [Function.comp_apply, unescaped_word, String.ofList_toList]

example : pieces (steps [.field "~1/", .index 10, .field "", .field "~0"]) =
    ["", "~1/", "10", "", "~0"] := by decide

theorem steps_congr (same : pointer.map Step.spelling = other.map Step.spelling) :
    pointer.steps = other.steps := by
  have words : ∀ pointer : Pointer, pointer.map Step.word =
      (pointer.map Step.spelling).map fun spelling => spelling.toList.flatMap escapedStepChar :=
    fun pointer => by
      rw [List.map_map]
      rfl
  rw [← String.toList_inj, steps_eq_words, steps_eq_words, words, words, same]

/-- Two pointers have one text iff their steps are spelled alike. -/
theorem steps_eq_iff :
    pointer.steps = other.steps ↔ pointer.map Step.spelling = other.map Step.spelling := by
  constructor
  · intro same
    have read := congrArg pieces same
    rw [pieces_steps, pieces_steps] at read
    exact (List.cons.inj read).2
  · exact steps_congr

/-- The text of one pointer goes on behind that of another one with a slash iff there are further
steps, which are spelled behind those of the other one. -/
theorem steps_below_iff : (∃ rest, other.steps = pointer.steps ++ "/" ++ rest) ↔
    ∃ more, more ≠ [] ∧ other.map Step.spelling = pointer.map Step.spelling ++ more := by
  constructor
  · rintro ⟨rest, longer⟩
    have read := congrArg pieces longer
    have split : (pointer.steps ++ "/" ++ rest).toList.splitOn '/' =
        pointer.steps.toList.splitOn '/' ++ rest.toList.splitOn '/' := by
      rw [String.toList_append, String.toList_append, List.append_assoc]
      exact List.splitOn_append_cons_of_beq _ _ (by decide)
    have parts : pieces (pointer.steps ++ "/" ++ rest) = pieces pointer.steps ++ pieces rest := by
      rw [pieces, split, List.map_append, pieces, pieces]
    rw [parts, pieces_steps, pieces_steps, List.cons_append] at read
    exact ⟨pieces rest, by simp [pieces], (List.cons.inj read).2⟩
  · rintro ⟨more, nonempty, longer⟩
    -- the further spellings are those of fields
    have steps : other.steps = pointer.steps ++ steps (more.map Step.field) := by
      rw [← steps_append]
      refine steps_congr ?_
      rw [longer, List.map_append, List.map_map]
      simp [Function.comp_def, Step.spelling]
    obtain ⟨first, more, rfl⟩ := List.exists_cons_of_ne_nil nonempty
    refine ⟨.ofList (first.toList.flatMap escapedStepChar) ++ Pointer.steps (more.map Step.field),
      ?_⟩
    rw [steps, ← String.toList_inj]
    simp [Pointer.steps, Step.text, stepText, Step.spelling]

/-- Whatever the steps are, they make a text from which splitting at the slashes, and undoing the
escapes in the pieces, recovers their spellings. So pointers that are spelled differently have
different texts, and one text is below another one iff its spellings extend those of the other. -/
theorem steps_unambiguous (pointer other : Pointer) :
    pointer.foldl (fun base step => base ++ stepText step.spelling) "" = pointer.steps ∧
    pieces pointer.steps = "" :: pointer.map Step.spelling ∧
    (pointer.steps = other.steps ↔ pointer.map Step.spelling = other.map Step.spelling) ∧
    ((∃ rest, other.steps = pointer.steps ++ "/" ++ rest) ↔
      ∃ more, more ≠ [] ∧ other.map Step.spelling = pointer.map Step.spelling ++ more) :=
  ⟨by simp [foldl_stepText], pieces_steps pointer, steps_eq_iff, steps_below_iff⟩

end DesignSystem.Pointer
