/-! # Ordered dictionaries

A dictionary keeps its names distinct and in the order in which they first came.

* `Dict`: entries with distinct names, which are strings unless another type is given.
* `insertEntry`, `collect`: a repeated name keeps its first place and takes its last value.
* `Dict.find?`, `Dict.map`, `Dict.ofList`: look-up, change of values, construction.
-/

namespace DesignSystem
set_option autoImplicit false

/-! ## Entry lists -/

section
variable {κ α : Type} [DecidableEq κ]

/-- Sets the value of a name: in its place if the name is there, at the end otherwise. -/
def insertEntry (entries : List (κ × α)) (name : κ) (value : α) : List (κ × α) :=
  match entries with
  | [] => [(name, value)]
  | entry :: rest =>
    if entry.1 = name then (name, value) :: rest else entry :: insertEntry rest name value

theorem insertEntry_names (entries : List (κ × α)) (name : κ) (value : α) :
    (insertEntry entries name value).map Prod.fst =
      if name ∈ entries.map Prod.fst then entries.map Prod.fst
      else entries.map Prod.fst ++ [name] := by
  induction entries with
  | nil => simp [insertEntry]
  | cons entry rest ih =>
    by_cases h : entry.1 = name
    · simp [insertEntry, h]
    · have h' : ¬ name = entry.1 := fun e => h e.symm
      simp only [insertEntry, h, if_false, List.map_cons, ih, List.mem_cons, h', false_or]
      split <;> simp

theorem insertEntry_nodup {entries : List (κ × α)} (name : κ) (value : α)
    (h : (entries.map Prod.fst).Nodup) :
    ((insertEntry entries name value).map Prod.fst).Nodup := by
  rw [insertEntry_names]
  split
  · exact h
  · next hn =>
    refine List.nodup_append.2 ⟨h, by simp, ?_⟩
    intro a ha b hb
    rw [List.mem_singleton] at hb
    exact fun e => hn (hb ▸ e ▸ ha)

/-- The entries with each name once: at its first place, with its last value. -/
def collect (entries : List (κ × α)) : List (κ × α) :=
  entries.foldl (fun done entry => insertEntry done entry.1 entry.2) []

theorem collect_nodup (entries : List (κ × α)) : ((collect entries).map Prod.fst).Nodup := by
  suffices h : ∀ done : List (κ × α), (done.map Prod.fst).Nodup →
      ((entries.foldl (fun done entry => insertEntry done entry.1 entry.2) done).map
        Prod.fst).Nodup from h [] (by simp)
  induction entries with
  | nil => exact fun done h => h
  | cons entry rest ih => exact fun done h => ih _ (insertEntry_nodup _ _ h)

end

/-! ## Dictionaries -/

/-- Values under distinct names, in order. -/
structure Dict (α : Type) (κ : Type := String) where
  entries : List (κ × α)
  distinct : (entries.map Prod.fst).Nodup

namespace Dict
variable {α β κ : Type}

def empty : Dict α κ := ⟨[], by simp⟩

/-- The dictionary of a list of entries; the last value of a name counts. -/
def ofList [DecidableEq κ] (entries : List (κ × α)) : Dict α κ :=
  ⟨collect entries, collect_nodup entries⟩

def names (d : Dict α κ) : List κ := d.entries.map Prod.fst

def find? [DecidableEq κ] (d : Dict α κ) (name : κ) : Option α := d.entries.lookup name

def map (f : α → β) (d : Dict α κ) : Dict β κ :=
  ⟨d.entries.map fun entry => (entry.1, f entry.2), by
    have h := d.distinct
    simpa [List.map_map, Function.comp_def] using h⟩

end Dict
end DesignSystem
