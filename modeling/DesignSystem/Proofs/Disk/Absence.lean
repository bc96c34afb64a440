import DesignSystem.Proofs.Disk.Below

/-! # Absent entries

A file cannot be read for want of an entry iff a part of its path asks an existing directory for a
name that is not in it. It is another error if a file stands where a directory is needed, or if the
path is that of a directory.

* `Disk.Lacks`: a path asks a directory for what it does not have.
* `Disk.IsBlocked`: a file is in the way, or a directory is in the place of the file.
* `Disk.readFile_absent_iff`: the error of reading a file is that an entry is absent.
-/

namespace DesignSystem.Disk
set_option autoImplicit false

/-- Going down parts, one of them asks the directory reached for a name that it does not have. -/
def LacksAlong (disk : Disk) (gone parts : List String) : Prop :=
  ∃ (before : List String) (name : String) (after names : List String)
    (children : List (String × Entry)), parts = before ++ name :: after ∧
    disk.descend gone before = .ok names ∧ disk.top.find names = .ok (.directory children) ∧
    name ≠ ".." ∧ Entry.isTooLong name = false ∧ children.lookup name = none

/-- A path that may be used asks a directory for a name that it does not have. -/
structure Lacks (disk : Disk) (path : Path) : Prop where
  usable : path.Usable
  lacks : disk.LacksAlong [] path.parts

/-- The entry that parts go down to, after the names already gone down. -/
def arrive (disk : Disk) (gone parts : List String) : Except DiskFault Entry :=
  (disk.descend gone parts).bind fun names => disk.top.find names

/-- A file stands where a path needs a directory, or the path is that of a directory. -/
def IsBlocked (disk : Disk) (path : Path) : Prop :=
  (∃ (before : List String) (part : String) (after names : List String) (content : Bytes),
    path.parts = before ++ part :: after ∧ disk.descend [] before = .ok names ∧
      disk.top.find names = .ok (.file content)) ∨
  ∃ children, disk.arrive [] path.parts = .ok (.directory children)

variable {disk : Disk} {path : Path} {gone parts : List String}

/-! ## One part -/

theorem descend_up {children : List (String × Entry)}
    (here : disk.top.find gone = .ok (.directory children)) :
    disk.descend gone [".."] = .ok gone.dropLast := by
  rw [descend, if_pos rfl, here]
  rfl

theorem descend_down {part : String} (plain : part ≠ "..") (gone : List String) :
    disk.descend gone [part] = .ok (gone ++ [part]) := by
  rw [descend, if_neg plain]
  rfl

theorem arrive_cons (disk : Disk) (gone : List String) (part : String) (parts : List String) :
    disk.arrive gone (part :: parts) =
      (disk.descend gone [part]).bind fun next => disk.arrive next parts := by
  rw [arrive, ← List.singleton_append, descend_append]
  cases disk.descend gone [part] <;> rfl

/-- What is missed is missed at the first part or behind it. -/
theorem lacksAlong_cons {part : String} : disk.LacksAlong gone (part :: parts) ↔
    (∃ children, disk.top.find gone = .ok (.directory children) ∧ part ≠ ".." ∧
      Entry.isTooLong part = false ∧ children.lookup part = none) ∨
    ∃ next, disk.descend gone [part] = .ok next ∧ disk.LacksAlong next parts := by
  constructor
  · rintro ⟨before, name, after, names, children, split, descends, rest⟩
    cases before with
    | nil =>
      cases split
      cases descends
      exact .inl ⟨children, rest⟩
    | cons first before =>
      cases split
      rw [← List.singleton_append, descend_append] at descends
      obtain ⟨next, step, descends⟩ := bind_eq_ok descends
      exact .inr ⟨next, step, before, name, after, names, children, rfl, descends, rest⟩
  · rintro (⟨children, rest⟩ | ⟨next, step, before, name, after, names, children, rfl, lacks⟩)
    · exact ⟨[], part, parts, gone, children, rfl, rfl, rest⟩
    · obtain ⟨descends, rest⟩ := lacks
      refine ⟨part :: before, name, after, names, children, rfl, ?_, rest⟩
      rw [← List.singleton_append, descend_append, step]
      exact descends

/-! ## All parts -/

/-- Once an entry is missed, the error stays. -/
theorem arrive_error {fault : DiskFault} (stuck : disk.top.find gone = .error fault)
    (parts : List String) : disk.arrive gone parts = .error fault := by
  induction parts generalizing gone with
  | nil => exact stuck
  | cons part parts ih =>
    rw [arrive_cons]
    by_cases up : part = ".."
    · rw [descend, if_pos up, stuck]
      rfl
    · rw [descend_down up]
      refine ih ?_
      rw [Entry.find_append, stuck]
      rfl

theorem LacksAlong.find {fault : DiskFault} (lacks : disk.LacksAlong gone parts) :
    disk.top.find gone ≠ .error fault := by
  obtain ⟨before, -, -, names, children, -, descends, finds, -⟩ := lacks
  intro stuck
  have arrives : disk.arrive gone before = .ok (.directory children) := by
    rw [arrive, descends]
    exact finds
  cases (arrive_error stuck before).symm.trans arrives

theorem find_dropLast {found : Entry} (finds : disk.top.find gone = .ok found) :
    ∃ above, disk.top.find gone.dropLast = .ok above := by
  rcases List.eq_nil_or_concat gone with rfl | ⟨above, last, rfl⟩
  · exact ⟨_, rfl⟩
  · rw [List.concat_eq_append, Entry.find_append] at finds
    obtain ⟨parent, there, -⟩ := bind_eq_ok finds
    exact ⟨parent, by rwa [List.concat_eq_append, List.dropLast_concat]⟩

/-- A child is absent iff its directory is there and does not have it. -/
theorem find_child_absent_iff {found : Entry} {name : String}
    (here : disk.top.find gone = .ok found) : disk.top.find (gone ++ [name]) = .error .absent ↔
      ∃ children, found = .directory children ∧ Entry.isTooLong name = false ∧
        children.lookup name = none := by
  rw [Entry.find_append, here]
  change Entry.find [name] found = _ ↔ _
  cases found with
  | file content => simp [Entry.find]
  | directory children =>
    rw [Entry.find]
    split
    · next long => simp [long]
    · next short =>
      cases there : children.lookup name with
      | none => exact iff_of_true rfl ⟨children, rfl, eq_false_of_ne_true short, there⟩
      | some child =>
        refine iff_of_false (by simp [Entry.find]) ?_
        rintro ⟨_, same, -, absent⟩
        cases same
        cases there.symm.trans absent

/-- Going down from an entry, the error is that an entry is absent iff a directory lacks it. -/
theorem arrive_absent_iff {found : Entry} (here : disk.top.find gone = .ok found) :
    disk.arrive gone parts = .error .absent ↔ disk.LacksAlong gone parts := by
  -- on the parts; the names gone down so far always lead to an entry
  induction parts generalizing gone found with
  | nil =>
    refine iff_of_false ?_ ?_
    · intro missed
      cases here.symm.trans missed
    · rintro ⟨before, name, after, -, -, split, -⟩
      simp at split
  | cons part parts ih =>
    rw [arrive_cons, lacksAlong_cons]
    by_cases up : part = ".."
    · subst up
      cases found with
      | file content =>
        have stops : disk.descend gone [".."] = .error .notDirectory := by
          rw [descend, if_pos rfl, here]
        simp [stops, Except.bind]
      | directory children =>
        obtain ⟨above, there⟩ := find_dropLast here
        rw [descend_up here]
        simpa [Except.bind] using ih there
    · have missed : (∃ children, disk.top.find gone = .ok (.directory children) ∧ part ≠ ".." ∧
          Entry.isTooLong part = false ∧ children.lookup part = none) ↔
            disk.top.find (gone ++ [part]) = .error .absent := by
        simp [find_child_absent_iff here, here, up]
      rw [descend_down up, missed]
      cases there : disk.top.find (gone ++ [part]) with
      | ok child => simpa [Except.bind] using ih there
      | error fault =>
        have none : ¬disk.LacksAlong (gone ++ [part]) parts := fun lacks => lacks.find there
        simp [Except.bind, arrive_error there, none]

theorem arrive_file {content : Bytes} (here : disk.top.find gone = .ok (.file content))
    (part : String) (parts : List String) :
    disk.arrive gone (part :: parts) = .error .notDirectory := by
  rw [arrive_cons]
  by_cases up : part = ".."
  · rw [descend, if_pos up, here]
    rfl
  · rw [descend_down up]
    refine arrive_error ?_ parts
    rw [Entry.find_append, here]
    rfl

/-! ## Reading -/

theorem locate_eq_arrive (usable : path.Usable) : disk.locate path =
    (disk.arrive [] path.parts).mapError fun fault => .disk ⟨fault, path.text⟩ := by
  rw [locate, Disk.access, usable.noNul, if_neg (by decide),
    if_neg (Nat.not_lt.mpr usable.length), arrive]
  generalize (disk.descend [] path.parts).bind (fun names => disk.top.find names) = arrives
  cases arrives <;> rfl

/-- A file cannot be read for want of an entry iff a directory lacks one that the path asks for. -/
theorem readFile_absent_iff : (∃ error, disk.readFile path = .error (.disk error) ∧
    error.fault = .absent) ↔ disk.Lacks path := by
  have missed : disk.arrive [] path.parts = .error .absent ↔ disk.LacksAlong [] path.parts :=
    arrive_absent_iff rfl
  constructor
  · rintro ⟨error, reads, absent⟩
    have usable := usable_of_absent reads absent
    refine ⟨usable, missed.mp ?_⟩
    rw [readFile, locate_eq_arrive usable] at reads
    cases arrives : disk.arrive [] path.parts with
    | ok found =>
      rw [arrives] at reads
      cases found with
      | file content => cases reads
      | directory children =>
        cases reads
        cases absent
    | error fault =>
      simp only [arrives, mapError_error, Except.error.injEq, AccessError.disk.injEq] at reads
      rw [← absent, ← reads]
  · rintro ⟨usable, lacks⟩
    refine ⟨⟨.absent, path.text⟩, ?_, rfl⟩
    rw [readFile, locate_eq_arrive usable, missed.mpr lacks]
    rfl

theorem IsBlocked.arrive (blocked : disk.IsBlocked path) :
    disk.arrive [] path.parts = .error .notDirectory ∨
      ∃ children, disk.arrive [] path.parts = .ok (.directory children) := by
  rcases blocked with ⟨before, part, after, names, content, split, descends, finds⟩ | directory
  · left
    have stops := arrive_file finds part after
    rw [Disk.arrive] at stops ⊢
    rw [split, descend_append, descends]
    exact stops
  · exact .inr directory

/-- What is blocked is not absent. -/
theorem IsBlocked.not_lacks (blocked : disk.IsBlocked path) : ¬disk.Lacks path := by
  rintro ⟨-, lacks⟩
  have missed : disk.arrive [] path.parts = .error .absent := (arrive_absent_iff rfl).mpr lacks
  rcases blocked.arrive with stops | ⟨children, arrives⟩
  · cases missed.symm.trans stops
  · cases missed.symm.trans arrives

theorem IsBlocked.readFile (blocked : disk.IsBlocked path) (bytes : Bytes) :
    disk.readFile path ≠ .ok bytes := by
  intro reads
  obtain ⟨names, ⟨usable, -⟩, -⟩ := readFile_eq_ok.mp reads
  rw [Disk.readFile, locate_eq_arrive usable] at reads
  rcases blocked.arrive with stops | ⟨children, arrives⟩
  · rw [stops] at reads
    cases reads
  · rw [arrives] at reads
    cases reads

end DesignSystem.Disk
