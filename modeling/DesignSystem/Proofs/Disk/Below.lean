import DesignSystem.Proofs.Disk.Effect

/-! # Looking below a directory

* `Path.below`: a path that goes on below another one.
* `Disk.HasDirectory`: a path leads to a directory.
* `Disk.HasDirectory.readFile_below`, `Disk.HasDirectory.absent_below`: the files below it, and
  those that are absent.
* `Disk.HasDirectory.fileNames_below`, `Disk.HasDirectory.mem_fileNames_below`: the files in a
  folder of it that are listed.
-/

namespace DesignSystem
set_option autoImplicit false

open DesignSystem.Path (goDown)

/-- The path that goes on with these names. -/
def Path.below (path : Path) (tail : List String) : Path :=
  { path with parts := path.parts ++ tail }

theorem Path.hasNul_below (path : Path) (tail : List String) :
    (path.below tail).hasNul = (path.hasNul || tail.any (·.toList.contains '\x00')) :=
  List.any_append

theorem Path.Usable.inReach {path : Path} (h : path.Usable) : Disk.isOverlong path = false :=
  decide_eq_false (Nat.not_lt_of_le h.length)

namespace Disk

/-! ## Descending on -/

theorem descend_append (disk : Disk) (gone parts more : List String) :
    disk.descend gone (parts ++ more) = (disk.descend gone parts).bind (disk.descend · more) := by
  induction parts generalizing gone with
  | nil => rfl
  | cons part parts ih =>
    rw [List.cons_append, descend, descend]
    split
    · cases disk.top.find gone with
      | error fault => rfl
      | ok found =>
        cases found with
        | file content => rfl
        | directory children => exact ih gone.dropLast
    · exact ih (gone ++ [part])

theorem descend_plain (disk : Disk) (gone : List String) {tail : List String}
    (plain : ".." ∉ tail) : disk.descend gone tail = .ok (gone ++ tail) := by
  induction tail generalizing gone with
  | nil => rw [descend, List.append_nil]
  | cons name tail ih =>
    rw [List.mem_cons, not_or] at plain
    rw [descend, if_neg (Ne.symm plain.1), ih _ plain.2, List.append_assoc, List.singleton_append]

theorem goDown_append (gone parts more : List String) :
    goDown gone (parts ++ more) = goDown (goDown gone parts) more := by
  induction parts generalizing gone with
  | nil => rfl
  | cons part parts ih => rw [List.cons_append, goDown, goDown, ih]

/-! ## Directories -/

theorem status_eq_ok {disk : Disk} {path : Path} {entry : Entry} :
    disk.status path = .ok (some entry) ↔ disk.locate path = .ok entry := by
  unfold status
  cases disk.locate path with
  | ok found => simp
  | error error =>
    cases error with
    | nul => simp
    | disk error => cases h : error.fault <;> simp [h]

/-- A path leads to a directory. -/
structure HasDirectory (disk : Disk) (path : Path) (names : List String) : Prop where
  reaches : disk.Reaches path names
  directory : disk.node? names = some .directory
  short : Short names

theorem isDirectory_eq_ok {disk : Disk} {path : Path} :
    disk.isDirectory path = .ok true ↔ ∃ names, disk.HasDirectory path names := by
  have located : disk.isDirectory path = .ok true ↔
      ∃ children, disk.locate path = .ok (.directory children) := by
    simp only [← status_eq_ok]
    unfold isDirectory
    cases disk.status path with
    | error error => simp [Except.map]
    | ok found =>
      cases found with
      | none => simp [Except.map]
      | some entry => cases entry <;> simp [Except.map, Entry.isDirectory]
  rw [located]
  constructor
  · rintro ⟨children, found⟩
    obtain ⟨names, reaches, finds⟩ := access_eq_ok.mp found
    obtain ⟨directory, short⟩ := find_directory.mp ⟨children, finds⟩
    exact ⟨names, reaches, directory, short⟩
  · rintro ⟨names, reaches, directory, short⟩
    obtain ⟨children, finds⟩ := find_directory.mpr ⟨directory, short⟩
    exact ⟨children, access_eq_ok.mpr ⟨names, reaches, finds⟩⟩

theorem HasDirectory.kept {disk after : Disk} {path : Path} {names : List String}
    (h : disk.HasDirectory path names) (keeps : disk.KeepsDirectories after) :
    after.HasDirectory path names :=
  ⟨keeps.reaches h.reaches, keeps names h.directory, h.short⟩

section
variable {disk : Disk} {path : Path} {names tail : List String}

theorem usable_of_absent {error : DiskError} (h : disk.readFile path = .error (.disk error))
    (absent : error.fault = .absent) : path.Usable := by
  unfold readFile at h
  split at h
  · cases h
  · cases h
    cases absent
  · next located =>
    cases h
    unfold locate Disk.access at located
    split at located
    · cases located
    · next noNul =>
      split at located
      · cases located
        cases absent
      · next length => exact ⟨eq_false_of_ne_true noNul, Nat.le_of_not_lt length⟩

theorem readFile_absent (h : disk.Reaches path names) :
    (∃ error, disk.readFile path = .error (.disk error) ∧ error.fault = .absent) ↔
      disk.top.find names = .error .absent := by
  rw [readFile, locate, h.access]
  cases disk.top.find names with
  | error fault => simp
  | ok found => cases found <;> simp

theorem usable_of_fileNames {asked : String → Bool} {found : List String}
    (h : disk.fileNames path asked = .ok found) (noNul : path.hasNul = false) : path.Usable := by
  refine ⟨noNul, Nat.le_of_not_lt fun long => ?_⟩
  obtain ⟨entry, looks, -⟩ := bind_eq_ok h
  simp [status, locate, access, noNul, long] at looks

/-- Nothing that is asked for in a folder stands under a path that is too long. -/
def InReach (disk : Disk) (path : Path) (names : List String) (folder : String)
    (asked : String → Bool) : Prop :=
  ∀ name, asked name = true → disk.node? (names ++ [folder, name]) ≠ none →
    isOverlong (path.below [folder, name]) = false

namespace HasDirectory

theorem reaches_below (h : disk.HasDirectory path names) (plain : ".." ∉ tail)
    {found : List String} :
    disk.Reaches (path.below tail) found ↔ (path.below tail).Usable ∧ found = names ++ tail := by
  have descends : disk.descend [] (path.below tail).parts = .ok (names ++ tail) := by
    rw [Path.below, descend_append, h.reaches.descends]
    exact disk.descend_plain names plain
  constructor
  · intro reaches
    have same := reaches.descends
    rw [descends] at same
    exact ⟨reaches.usable, (Except.ok.inj same).symm⟩
  · rintro ⟨usable, rfl⟩
    exact ⟨usable, descends⟩

/-- Directories that are missing above a path below a directory are missing below it. -/
theorem missing_ancestor (h : disk.HasDirectory path names) (plain : ".." ∉ tail)
    {place : List String} (above : (path.below tail).IsAncestor place)
    (missing : disk.node? place = none) :
    ∃ k, 0 < k ∧ k < tail.length ∧ place = names ++ tail.take k := by
  obtain ⟨k, hk, rfl⟩ := above
  rw [Path.below, List.length_append] at hk
  rw [Path.below] at missing ⊢
  dsimp only at missing ⊢
  have root : goDown [] path.parts = names := h.reaches.names_eq.symm
  by_cases inside : path.parts.length < k
  · refine ⟨k - path.parts.length, by omega, by omega, ?_⟩
    have plain : ".." ∉ tail.take (k - path.parts.length) :=
      fun mem => plain (List.mem_of_mem_take mem)
    rw [List.take_append, List.take_of_length_le (by omega), goDown_append, root]
    exact (descend_eq_goDown (disk.descend_plain names plain)).symm
  · rw [List.take_append_of_le_length (by omega)] at missing
    rcases Nat.lt_or_eq_of_le (Nat.le_of_not_lt inside) with shorter | whole
    · have there : disk.node? names ≠ none := by simp [h.directory]
      rw [descend_ancestor h.reaches.descends there shorter] at missing
      cases missing
    · rw [whole, List.take_length, root, h.directory] at missing
      cases missing

/-- The files below a directory. -/
theorem readFile_below (h : disk.HasDirectory path names) (plain : ".." ∉ tail)
    {content : Bytes} : disk.readFile (path.below tail) = .ok content ↔
      (path.below tail).Usable ∧ Short (names ++ tail) ∧
        disk.node? (names ++ tail) = some (.file content) := by
  rw [readFile_eq_ok]
  simp only [h.reaches_below plain]
  constructor
  · rintro ⟨_, ⟨usable, rfl⟩, there, short⟩
    exact ⟨usable, short, there⟩
  · rintro ⟨usable, short, there⟩
    exact ⟨_, ⟨usable, rfl⟩, there, short⟩

/-- A file in a directory below a directory is absent if it may be looked for and nothing is at its
place. -/
theorem absent_below {folder name : String} (h : disk.HasDirectory path names)
    (plain : ".." ∉ [folder, name]) (short : Short [folder, name])
    (parent : disk.node? (names ++ [folder]) = some .directory) :
    (∃ error, disk.readFile (path.below [folder, name]) = .error (.disk error) ∧
      error.fault = .absent) ↔
      (path.below [folder, name]).Usable ∧ disk.node? (names ++ [folder, name]) = none := by
  have shortParent : Short (names ++ [folder]) := by
    intro part mem
    rcases List.mem_append.mp mem with mem | mem
    · exact h.short part mem
    · exact short part (List.mem_cons.mpr (.inl (List.mem_singleton.mp mem)))
  obtain ⟨children, finds⟩ := find_directory.mpr ⟨parent, shortParent⟩
  have child := Entry.find_child_absent finds (short name (by simp))
  rw [List.append_assoc, List.singleton_append] at child
  constructor
  · rintro ⟨error, reads, absent⟩
    have usable := usable_of_absent reads absent
    have reaches := (h.reaches_below plain).mpr ⟨usable, rfl⟩
    exact ⟨usable, child.mp ((readFile_absent reaches).mp ⟨error, reads, absent⟩)⟩
  · rintro ⟨usable, absent⟩
    have reaches := (h.reaches_below plain).mpr ⟨usable, rfl⟩
    exact (readFile_absent reaches).mpr (child.mpr absent)

theorem mem_childNames {children : List (String × Entry)} {name : String} :
    name ∈ (Entry.directory children).childNames ↔ (children.lookup name).isSome = true := by
  rw [Entry.childNames, List.mem_mergeSort, List.mem_eraseDups, lookup_isSome]

theorem filesAmong_nil (directory : Path) (asked : String → Bool) :
    filesAmong directory asked [] = .ok [] := by
  simp [filesAmong, Entry.childNames]

/-- What stands in a folder of a directory, if it may be looked for: nothing where it is missing or
a file. -/
theorem folder_below {folder : String} (h : disk.HasDirectory path names)
    (plain : ".." ∉ [folder]) (short : Short [folder]) (usable : (path.below [folder]).Usable) :
    ∃ children, (∀ name, disk.node? (names ++ [folder, name]) =
        (children.lookup name).map Entry.node) ∧
      ∀ asked, disk.fileNames (path.below [folder]) asked =
        filesAmong (path.below [folder]) asked children := by
  obtain ⟨above, finds⟩ := find_directory.mpr ⟨h.directory, h.short⟩
  have reaches := (h.reaches_below plain).mpr ⟨usable, rfl⟩
  have leads : disk.top.find (names ++ [folder]) =
      (above.lookup folder).elim (.error .absent) .ok := by
    rw [Entry.find_append, finds, Except.bind, Entry.find, short folder (by simp)]
    cases above.lookup folder <;> rfl
  have nodes : ∀ name, disk.node? (names ++ [folder, name]) =
      (above.lookup folder).bind (Entry.node? [name]) := by
    intro name
    rw [node?, Entry.node?, Entry.at?_append, (Entry.find_eq_ok.mp finds).1, Option.bind_some,
      Entry.at?]
    cases above.lookup folder <;> rfl
  simp only [nodes, fileNames, status, locate, reaches.access, leads]
  cases above.lookup folder with
  | none => exact ⟨[], fun name => rfl, fun asked => (filesAmong_nil _ asked).symm⟩
  | some entry =>
    cases entry with
    | file content => exact ⟨[], fun name => rfl, fun asked => (filesAmong_nil _ asked).symm⟩
    | directory children =>
      refine ⟨children, fun name => ?_, fun asked => rfl⟩
      rw [Option.bind_some, Entry.node?, Entry.at?]
      cases children.lookup name <;> rfl

theorem filesAmong_eq_ok {directory : Path} {asked : String → Bool}
    {children : List (String × Entry)} :
    (∃ found, filesAmong directory asked children = .ok found) ↔
      ∀ name, asked name = true → (children.lookup name).isSome = true →
        isOverlong (directory.child name) = false := by
  have listed : ∀ name, name ∈ (Entry.directory children).childNames.filter asked ↔
      (children.lookup name).isSome = true ∧ asked name = true := fun name => by
    rw [List.mem_filter, mem_childNames]
  simp only [filesAmong]
  constructor
  · rintro ⟨found, lists⟩ name wanted there
    split at lists
    · cases lists
    · next short =>
      exact eq_false_of_ne_true
        (List.find?_eq_none.mp short name ((listed name).mpr ⟨there, wanted⟩))
  · intro reach
    split
    · next name tooLong =>
      obtain ⟨there, wanted⟩ := (listed name).mp (List.mem_of_find?_eq_some tooLong)
      have long := List.find?_some tooLong
      rw [reach name wanted there] at long
      cases long
    · exact ⟨_, rfl⟩

theorem mem_filesAmong {directory : Path} {asked : String → Bool}
    {children : List (String × Entry)} {found : List String}
    (h : filesAmong directory asked children = .ok found) {name : String} :
    name ∈ found ↔ asked name = true ∧ ∃ content, children.lookup name = some (.file content) := by
  simp only [filesAmong] at h
  split at h
  · cases h
  · cases h
    rw [List.mem_filter, List.mem_filter, mem_childNames]
    cases children.lookup name with
    | none => simp
    | some entry => cases entry <;> simp [Entry.isFile]

/-- The files in a folder of a directory that are asked for are listed if the folder may be looked
for and they are in reach. -/
theorem fileNames_below {folder : String} {asked : String → Bool}
    (h : disk.HasDirectory path names) (plain : ".." ∉ [folder]) (short : Short [folder])
    (usable : (path.below [folder]).Usable) :
    (∃ found, disk.fileNames (path.below [folder]) asked = .ok found) ↔
      InReach disk path names folder asked := by
  obtain ⟨children, nodes, lists⟩ := h.folder_below plain short usable
  have parts : ∀ name, path.below [folder, name] = (path.below [folder]).child name :=
    fun name => by simp [Path.below, Path.child]
  rw [lists, filesAmong_eq_ok]
  refine forall_congr' fun name => ?_
  rw [nodes, parts]
  cases children.lookup name <;> simp

theorem mem_fileNames_below {folder name : String} {asked : String → Bool} {found : List String}
    (h : disk.HasDirectory path names) (plain : ".." ∉ [folder]) (short : Short [folder])
    (usable : (path.below [folder]).Usable)
    (lists : disk.fileNames (path.below [folder]) asked = .ok found) :
    name ∈ found ↔ asked name = true ∧
      ∃ content, disk.node? (names ++ [folder, name]) = some (.file content) := by
  obtain ⟨children, nodes, among⟩ := h.folder_below plain short usable
  rw [mem_filesAmong ((among asked).symm.trans lists), nodes]
  cases children.lookup name with
  | none => simp
  | some entry => cases entry <;> simp [Entry.node]

end HasDirectory
end
end Disk
end DesignSystem
