import DesignSystem.Dict

/-! # Look-up in ordered dictionaries

* `lookup_insertEntry`: what is found after a name has been set.
* `mem_of_lookup`, `lookup_of_mem`: what is found under a name is an entry, and with distinct names
  every entry is found.
* `mem_collect`, `lookup_collect`: collected entries are among the entries, and the value of a name
  in them is its last value.
* `collect_eq_self`: entries with distinct names are collected as they are.
-/

namespace DesignSystem
set_option autoImplicit false

variable {α κ : Type} [DecidableEq κ]

/-! ## Setting a name -/

theorem lookup_insertEntry (entries : List (κ × α)) (name other : κ) (value : α) :
    (insertEntry entries name value).lookup other =
      if other = name then some value else entries.lookup other := by
  induction entries with
  | nil =>
    rw [insertEntry, List.lookup_cons]
    by_cases h : other = name
    · simp [h]
    · simp [h, beq_eq_false_iff_ne.mpr h]
  | cons entry rest ih =>
    rw [insertEntry]
    split
    · next same =>
      rw [List.lookup_cons, List.lookup_cons, same]
      by_cases h : other = name
      · simp [h]
      · simp [h, beq_eq_false_iff_ne.mpr h]
    · next differ =>
      rw [List.lookup_cons, List.lookup_cons, ih]
      by_cases h : other = entry.1
      · subst h
        simp [differ]
      · simp [beq_eq_false_iff_ne.mpr h]

theorem insertEntry_of_not_mem {entries : List (κ × α)} {name : κ} (value : α)
    (h : name ∉ entries.map Prod.fst) :
    insertEntry entries name value = entries ++ [(name, value)] := by
  induction entries with
  | nil => rfl
  | cons entry rest ih =>
    rw [List.map_cons, List.mem_cons, not_or] at h
    rw [insertEntry, if_neg (Ne.symm h.1), ih h.2, List.cons_append]

theorem mem_insertEntry {entries : List (κ × α)} {name : κ} {value : α}
    {entry : κ × α} (h : entry ∈ insertEntry entries name value) :
    entry = (name, value) ∨ entry ∈ entries := by
  induction entries with
  | nil => exact .inl (List.mem_singleton.mp h)
  | cons first rest ih =>
    rw [insertEntry] at h
    split at h
    · rcases List.mem_cons.mp h with e | mem
      · exact .inl e
      · exact .inr (List.mem_cons_of_mem _ mem)
    · rcases List.mem_cons.mp h with e | mem
      · exact .inr (e ▸ List.mem_cons_self)
      · exact (ih mem).imp_right (List.mem_cons_of_mem _)

theorem lookup_isSome (entries : List (κ × α)) (name : κ) :
    (entries.lookup name).isSome = true ↔ name ∈ entries.map Prod.fst := by
  induction entries with
  | nil => simp
  | cons entry rest ih =>
    rw [List.lookup_cons]
    by_cases h : name = entry.1
    · simp [h]
    · simp [beq_eq_false_iff_ne.mpr h, ih, h]

/-! ## Entries -/

theorem mem_of_lookup {entries : List (κ × α)} {name : κ} {value : α}
    (found : entries.lookup name = some value) : (name, value) ∈ entries := by
  obtain ⟨before, after, rfl, -⟩ := List.lookup_eq_some_iff.mp found
  simp

theorem lookup_of_mem {entries : List (κ × α)} {entry : κ × α}
    (distinct : (entries.map Prod.fst).Nodup) (mem : entry ∈ entries) :
    entries.lookup entry.1 = some entry.2 := by
  induction entries with
  | nil => cases mem
  | cons first rest ih =>
    rw [List.map_cons, List.nodup_cons] at distinct
    rw [List.lookup_cons]
    rcases List.mem_cons.mp mem with rfl | mem
    · rw [beq_self_eq_true]
    · have apart : entry.1 ≠ first.1 := fun e => distinct.1 (e ▸ List.mem_map_of_mem mem)
      rw [beq_eq_false_iff_ne.mpr apart]
      exact ih distinct.2 mem

/-! ## Collected entries -/

theorem collect_append_singleton (entries : List (κ × α)) (entry : κ × α) :
    collect (entries ++ [entry]) = insertEntry (collect entries) entry.1 entry.2 := by
  rw [collect, List.foldl_append]
  rfl

theorem mem_collect {entries : List (κ × α)} {entry : κ × α}
    (h : entry ∈ collect entries) : entry ∈ entries := by
  suffices sub : ∀ done : List (κ × α),
      entry ∈ entries.foldl (fun done entry => insertEntry done entry.1 entry.2) done →
        entry ∈ done ∨ entry ∈ entries from
    (sub [] h).resolve_left List.not_mem_nil
  clear h
  induction entries with
  | nil => exact fun done mem => .inl mem
  | cons first rest ih =>
    intro done mem
    rcases ih _ mem with old | new
    · rcases mem_insertEntry old with e | old
      · exact .inr (e ▸ List.mem_cons_self)
      · exact .inl old
    · exact .inr (List.mem_cons_of_mem _ new)

/-- The last of several values of a name counts. -/
theorem lookup_collect (entries : List (κ × α)) (name : κ) :
    (collect entries).lookup name =
      (entries.reverse.find? (·.1 = name)).map Prod.snd := by
  suffices h : ∀ reversed : List (κ × α), (collect reversed.reverse).lookup name =
      (reversed.find? (·.1 = name)).map Prod.snd by
    rw [← List.reverse_reverse entries, h, List.reverse_reverse]
  -- entries are collected from the front, so the induction takes them off the end
  intro reversed
  induction reversed with
  | nil => rfl
  | cons entry earlier ih =>
    rw [List.reverse_cons, collect_append_singleton, lookup_insertEntry, ih, List.find?_cons]
    by_cases h : entry.1 = name
    · simp [h]
    · simp [h, Ne.symm h]

/-- Entries with distinct names stay as they are. -/
theorem collect_eq_self {entries : List (κ × α)} (h : (entries.map Prod.fst).Nodup) :
    collect entries = entries := by
  suffices h : ∀ reversed : List (κ × α), (reversed.reverse.map Prod.fst).Nodup →
      collect reversed.reverse = reversed.reverse by
    rw [← List.reverse_reverse entries]
    exact h _ (by rwa [List.reverse_reverse])
  intro reversed
  induction reversed with
  | nil => exact fun _ => rfl
  | cons entry earlier ih =>
    intro distinct
    rw [List.reverse_cons, List.map_append, List.nodup_append] at distinct
    have new : entry.1 ∉ earlier.reverse.map Prod.fst := fun mem =>
      distinct.2.2 _ mem entry.1 (by simp) rfl
    rw [List.reverse_cons, collect_append_singleton, ih distinct.1,
      insertEntry_of_not_mem _ new]

end DesignSystem
