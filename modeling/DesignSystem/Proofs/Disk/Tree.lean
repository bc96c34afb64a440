import DesignSystem.Disk.Entry
import DesignSystem.Proofs.Dict
import DesignSystem.Proofs.Outcome

/-! # Places in a tree of entries

* `Node`, `Entry.node?`: what stands at a place, apart from what lies below it.
* `Entry.find_eq_ok`: names lead to an entry if they are the place of one and none is too long.
* `Entry.alter_eq_ok`: a change puts its result at its place and leaves what lies elsewhere.
* `Entry.alter_write`, `Entry.alter_make`: the nodes after a file is written and after a directory
  is made.
-/

namespace DesignSystem
set_option autoImplicit false

/-- A file with its content, or a directory without what is in it. -/
inductive Node where
  | file (content : Bytes)
  | directory
  deriving DecidableEq

namespace Entry

def node : Entry → Node
  | file content => .file content
  | directory _ => .directory

/-- The entry at a place, whose names may be too long to be looked for. -/
def at? : List String → Entry → Option Entry
  | [], entry => some entry
  | _ :: _, file _ => none
  | name :: names, directory children => (children.lookup name).bind (at? names)

/-- The node at a place. -/
def node? (names : List String) (entry : Entry) : Option Node := (at? names entry).map node

/-! ## Places below places -/

theorem at?_append (names more : List String) (entry : Entry) :
    at? (names ++ more) entry = (at? names entry).bind (at? more) := by
  induction names generalizing entry with
  | nil => rfl
  | cons name names ih =>
    cases entry with
    | file content => rfl
    | directory children =>
      rw [List.cons_append, at?, at?]
      cases children.lookup name with
      | none => rfl
      | some child => exact ih child

theorem node?_eq_directory {names : List String} {entry : Entry} :
    node? names entry = some .directory ↔
      ∃ children, at? names entry = some (directory children) := by
  rw [node?]
  cases at? names entry with
  | none => simp
  | some found => cases found <;> simp [node]

theorem node?_eq_file {names : List String} {entry : Entry} {content : Bytes} :
    node? names entry = some (.file content) ↔ at? names entry = some (file content) := by
  rw [node?]
  cases at? names entry with
  | none => simp
  | some found => cases found <;> simp [node]

theorem node?_eq_none {names : List String} {entry : Entry} :
    node? names entry = none ↔ at? names entry = none := by
  rw [node?, Option.map_eq_none_iff]

/-- What is not at the top stands in a directory. -/
theorem node?_parent {names : List String} {name : String} {entry : Entry}
    (h : node? (names ++ [name]) entry ≠ none) : node? names entry = some .directory := by
  rw [Ne, node?_eq_none, at?_append] at h
  rw [node?_eq_directory]
  cases found : at? names entry with
  | none => simp [found] at h
  | some parent =>
    cases parent with
    | file content => simp [found, at?] at h
    | directory children => exact ⟨children, rfl⟩

/-! ## Looking -/

theorem find_append (names more : List String) (entry : Entry) :
    find (names ++ more) entry = (find names entry).bind (find more) := by
  induction names generalizing entry with
  | nil => rfl
  | cons name names ih =>
    cases entry with
    | file content => rfl
    | directory children =>
      rw [List.cons_append, find, find]
      split
      · rfl
      · cases children.lookup name with
        | none => rfl
        | some child => exact ih child

/-- Names lead to the entry at their place unless one of them is too long. -/
theorem find_eq_ok {names : List String} {entry found : Entry} :
    find names entry = .ok found ↔
      at? names entry = some found ∧ ∀ name ∈ names, isTooLong name = false := by
  induction names generalizing entry with
  | nil => simp [find, at?]
  | cons name names ih =>
    cases entry with
    | file content => simp [find, at?]
    | directory children =>
      rw [find, at?, List.forall_mem_cons]
      cases long : isTooLong name with
      | true => simp
      | false =>
        cases children.lookup name with
        | none => simp
        | some child => simp [ih]

/-- What is not found is not there, unless a name is too long. -/
theorem find_eq_error {names : List String} {entry : Entry} {fault : DiskFault}
    (h : find names entry = .error fault) : fault = .nameTooLong ∨ at? names entry = none := by
  induction names generalizing entry with
  | nil => cases h
  | cons name names ih =>
    cases entry with
    | file content => exact .inr rfl
    | directory children =>
      rw [find] at h
      rw [at?]
      split at h
      · cases h
        exact .inl rfl
      · cases found : children.lookup name with
        | none => exact .inr rfl
        | some child =>
          rw [found] at h
          exact ih h

/-- What a directory is asked for is absent if nothing stands at its place. -/
theorem find_child_absent {names : List String} {name : String} {entry : Entry}
    {children : List (String × Entry)} (parent : find names entry = .ok (directory children))
    (short : isTooLong name = false) :
    find (names ++ [name]) entry = .error .absent ↔ node? (names ++ [name]) entry = none := by
  rw [find_append, parent, node?_eq_none, at?_append, (find_eq_ok.mp parent).1]
  simp only [Except.bind, Option.bind_some, find, short, Bool.false_eq_true, if_false, at?]
  cases children.lookup name <;> simp

/-! ## Changes -/

theorem node?_insertEntry_other (children : List (String × Entry)) {name : String} {child : Entry}
    {names other : List String} (apart : ¬ name :: names <+: other)
    (below : ∀ rest, ¬ names <+: rest →
      node? rest child = node? (name :: rest) (directory children)) :
    node? other (directory (insertEntry children name child)) =
      node? other (directory children) := by
  cases other with
  | nil => rfl
  | cons first rest =>
    by_cases same : first = name
    · subst same
      have apart : ¬ names <+: rest := fun e => apart ((List.prefix_cons_inj first).mpr e)
      rw [← below rest apart, node?, at?, lookup_insertEntry, if_pos rfl]
      rfl
    · rw [node?, node?, at?, at?, lookup_insertEntry, if_neg same]

theorem find_insertEntry {children : List (String × Entry)} {name : String}
    (short : isTooLong name = false) (child : Entry) (names : List String) :
    find (name :: names) (directory (insertEntry children name child)) = find names child := by
  simp [find, short, lookup_insertEntry]

/-- A change leads to the entry it makes of the one at its place, and keeps the nodes elsewhere. -/
theorem alter_eq_ok {change : Option Entry → Except DiskFault Entry} {names : List String}
    {entry changed : Entry} (h : alter change names entry = .ok changed) :
    ∃ new, change (at? names entry) = .ok new ∧ find names changed = .ok new ∧
      ∀ other, ¬ names <+: other → node? other changed = node? other entry := by
  induction names generalizing entry changed with
  | nil => exact ⟨changed, h, rfl, fun other apart => absurd List.nil_prefix apart⟩
  | cons name names ih =>
    cases entry with
    | file content => cases h
    | directory children =>
      unfold alter at h
      cases short : isTooLong name with
      | true => simp [short] at h
      | false =>
        simp only [short, Bool.false_eq_true, if_false] at h
        cases found : children.lookup name with
        | some child =>
          simp only [found] at h
          obtain ⟨made, makes, e⟩ := bind_eq_ok h
          cases e
          obtain ⟨new, changes, leads, others⟩ := ih makes
          refine ⟨new, ?_, ?_, fun other apart => ?_⟩
          · simpa [at?, found] using changes
          · rw [find_insertEntry short, leads]
          · refine node?_insertEntry_other children apart fun rest apart => ?_
            rw [others rest apart, node?, node?, at?, found]
            rfl
        | none =>
          cases names with
          | cons next names => simp [found] at h
          | nil =>
            simp only [found] at h
            obtain ⟨new, changes, e⟩ := bind_eq_ok h
            cases e
            refine ⟨new, ?_, ?_, fun other apart => ?_⟩
            · simpa [at?, found] using changes
            · rw [find_insertEntry short, find]
            · exact node?_insertEntry_other children apart fun rest apart =>
                absurd List.nil_prefix apart

/-- An entry with nothing below it. -/
def Bare (entry : Entry) : Prop := ∀ name names, at? (name :: names) entry = none

theorem bare_file (content : Bytes) : Bare (file content) := fun _ _ => rfl

theorem bare_empty : Bare (directory []) := fun _ _ => rfl

/-- Where nothing lies below the old and the new entry, no node changes but that at the place. -/
theorem node?_of_bare {names : List String} {entry changed new : Entry}
    (old : ∀ found, at? names entry = some found → Bare found) (bare : Bare new)
    (leads : find names changed = .ok new)
    (others : ∀ other, ¬ names <+: other → node? other changed = node? other entry)
    (other : List String) :
    node? other changed = if other = names then some new.node else node? other entry := by
  have there := (find_eq_ok.mp leads).1
  split
  · next same => rw [same, node?, there, Option.map_some]
  · next differ =>
    by_cases below : names <+: other
    · obtain ⟨rest, rfl⟩ := below
      cases rest with
      | nil => exact absurd (List.append_nil names) differ
      | cons name rest =>
        have gone : at? (names ++ name :: rest) entry = none := by
          rw [at?_append]
          cases found : at? names entry with
          | none => rfl
          | some parent => exact old parent found name rest
        rw [node?, node?, gone, at?_append, there, Option.bind_some, bare name rest]
    · exact others other below

theorem writeChange_eq_ok {content : Bytes} {old : Option Entry} {new : Entry}
    (h : writeChange content old = .ok new) :
    new = file content ∧ (old = none ∨ ∃ before, old = some (file before)) := by
  rcases old with _ | before | children
  · exact ⟨(Except.ok.inj h).symm, .inl rfl⟩
  · exact ⟨(Except.ok.inj h).symm, .inr ⟨before, rfl⟩⟩
  · cases h

theorem makeChange_eq_ok {old : Option Entry} {new : Entry} (h : makeChange old = .ok new) :
    new = directory [] ∧ old = none := by
  cases old with
  | none => exact ⟨(Except.ok.inj h).symm, rfl⟩
  | some _ => cases h

/-- A written file stands in place of a file or of nothing. -/
theorem alter_write {content : Bytes} {names : List String} {entry changed : Entry}
    (h : alter (writeChange content) names entry = .ok changed) :
    find names changed = .ok (file content) ∧ node? names entry ≠ some .directory ∧
      ∀ other, node? other changed =
        if other = names then some (.file content) else node? other entry := by
  obtain ⟨new, changes, leads, others⟩ := alter_eq_ok h
  obtain ⟨rfl, old⟩ := writeChange_eq_ok changes
  refine ⟨leads, ?_, node?_of_bare ?_ (bare_file content) leads others⟩
  · rw [Ne, node?_eq_directory]
    rintro ⟨children, found⟩
    rcases old with old | ⟨before, old⟩ <;> rw [old] at found <;> cases found
  · intro found there
    rcases old with old | ⟨before, old⟩ <;> rw [old] at there <;> cases there
    exact bare_file before

/-- A made directory is empty and stands in place of nothing. -/
theorem alter_make {names : List String} {entry changed : Entry}
    (h : alter makeChange names entry = .ok changed) :
    node? names entry = none ∧
      ∀ other, node? other changed =
        if other = names then some .directory else node? other entry := by
  obtain ⟨new, changes, leads, others⟩ := alter_eq_ok h
  obtain ⟨rfl, old⟩ := makeChange_eq_ok changes
  refine ⟨node?_eq_none.mpr old, node?_of_bare ?_ bare_empty leads others⟩
  intro found there
  rw [old] at there
  cases there

end Entry
end DesignSystem
