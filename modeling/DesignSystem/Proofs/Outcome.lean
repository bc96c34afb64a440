import DesignSystem.Outcome

/-! # Computations that succeed

* `bind_eq_ok`, `map_eq_ok`, `mapError_eq_ok`, `Outcome.bind_eq_ok`: what succeeds in two steps
  succeeds in each.
* `Outcome.exists_of_isOk`, `exists_of_toOption_any`: what succeeds has a value.
* `exists_bind_pure`: whether there is a result is decided by the steps that can fail.
* `exists_mapM`: a computation that succeeds on each item of a list succeeds on the list.
-/

namespace DesignSystem
set_option autoImplicit false

theorem bind_eq_ok {ε α β : Type} {first : Except ε α} {next : α → Except ε β} {result : β}
    (h : first >>= next = .ok result) : ∃ value, first = .ok value ∧ next value = .ok result := by
  cases first with
  | error fault => cases h
  | ok value => exact ⟨value, rfl, h⟩

theorem map_eq_ok {ε α β : Type} {first : Except ε α} {f : α → β} {result : β}
    (h : first.map f = .ok result) : ∃ value, first = .ok value ∧ f value = result := by
  cases first with
  | error fault => cases h
  | ok value => exact ⟨value, rfl, Except.ok.inj h⟩

/-- A last step that cannot fail does not decide whether there is a result. -/
theorem exists_bind_pure {ε α β : Type} {first : Except ε α} {f : α → β} :
    (∃ result, (first >>= fun value => pure (f value)) = .ok result) ↔
      ∃ value, first = .ok value := by
  cases first <;> simp [bind, Except.bind, pure, Except.pure]

theorem exists_mapM {α β : Type} {f : α → Option β} {items : List α}
    (each : ∀ item ∈ items, ∃ result, f item = some result) :
    ∃ results, items.mapM f = some results ∧
      ∀ result, result ∈ results ↔ ∃ item ∈ items, f item = some result := by
  induction items with
  | nil => exact ⟨[], rfl, by simp⟩
  | cons item items ih =>
    rw [List.forall_mem_cons] at each
    obtain ⟨first, here⟩ := each.1
    obtain ⟨results, rest, mem⟩ := ih each.2
    exact ⟨first :: results, by simp [List.mapM_cons, here, rest], by simp [mem, here, eq_comm]⟩

/-- What passes a test is a value. -/
theorem exists_of_toOption_any {ε α : Type} {first : Except ε α} {test : α → Bool}
    (h : first.toOption.any test = true) : ∃ value, first = .ok value ∧ test value = true := by
  cases first with
  | error fault => cases h
  | ok value => exact ⟨value, rfl, h⟩

@[simp] theorem mapError_ok {ε δ α : Type} (f : ε → δ) (value : α) :
    (Except.ok value : Except ε α).mapError f = .ok value := rfl

@[simp] theorem mapError_error {ε δ α : Type} (f : ε → δ) (fault : ε) :
    (Except.error fault : Except ε α).mapError f = .error (f fault) := rfl

theorem mapError_eq_ok {ε δ α : Type} {first : Except ε α} {f : ε → δ} {value : α} :
    first.mapError f = .ok value ↔ first = .ok value := by
  cases first <;> simp

theorem Outcome.bind_eq_ok {α β : Type} {first : Outcome α} {next : α → Outcome β} {result : β}
    (h : first >>= next = .ok result) : ∃ value, first = .ok value ∧ next value = .ok result := by
  cases first with
  | ok value => exact ⟨value, rfl, h⟩
  | failed failure => cases h
  | aborted abort => cases h

theorem Outcome.ofExcept_eq_ok {α : Type} {first : Except Abort α} {value : α} :
    Outcome.ofExcept first = .ok value ↔ first = .ok value := by
  cases first <;> simp [Outcome.ofExcept]

theorem Outcome.bind_eq_failed {α β : Type} {first : Outcome α} {next : α → Outcome β}
    {reason : Failure} (h : first >>= next = .failed reason) :
    first = .failed reason ∨ ∃ value, first = .ok value ∧ next value = .failed reason := by
  cases first with
  | ok value => exact .inr ⟨value, rfl, h⟩
  | failed other =>
    cases h
    exact .inl rfl
  | aborted abort => cases h

theorem Outcome.exists_of_isOk {α : Type} {outcome : Outcome α} (h : outcome.isOk = true) :
    ∃ value, outcome = .ok value := by
  cases outcome with
  | ok value => exact ⟨value, rfl⟩
  | failed failure => cases h
  | aborted abort => cases h

theorem Outcome.exists_of_fst_isOk {α σ : Type} {result : Outcome α × σ}
    (h : result.1.isOk = true) : ∃ value after, result = (.ok value, after) := by
  obtain ⟨value, succeeds⟩ := exists_of_isOk h
  exact ⟨value, result.2, Prod.ext succeeds rfl⟩

end DesignSystem
