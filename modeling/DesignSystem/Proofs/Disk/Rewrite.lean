import DesignSystem.Proofs.Disk.Overlong

/-! # Several files written

* `Disk.Rewrites`: nothing changes but that some of these files are written and that directories
  are made at some places.
* `Disk.Wrote.rewrites`, `Disk.Rewrites.trans`: one file, and one disk after the other.
* `Disk.Rewrites.readFile`: a file at none of their places is read as before.
* `Disk.node?_of_isThere`: where a path leads and nothing is found, nothing stands.
* `Disk.hasDirectory_of_readFile`: a path below which a file is read leads to a directory.
-/

namespace DesignSystem
set_option autoImplicit false

open DesignSystem.Path (goDown)

theorem Path.names_below (path : Path) {tail : List String} (plain : ".." ∉ tail) :
    (path.below tail).names = path.names ++ tail := by
  rw [names, below, Disk.goDown_append]
  exact (Disk.descend_eq_goDown (Disk.descend_plain .empty path.names plain)).symm

namespace Disk

/-! ## Written files -/

/-- One of these files has been written at a place, over a file or where nothing was. -/
def WrittenAt (disk after : Disk) (files : List (Path × Bytes)) (names : List String) : Prop :=
  ∃ file ∈ files, file.1.Usable ∧ names = file.1.names ∧
    disk.node? names ≠ some .directory ∧ after.node? names = some (.file file.2)

/-- Nothing changes but that some of these files are written and that directories are made at some
places where nothing was. -/
def Rewrites (disk after : Disk) (made : List String → Prop) (files : List (Path × Bytes)) :
    Prop :=
  ∀ names, disk.GrowsAt after made names ∨ disk.WrittenAt after files names

section
variable {disk middle after : Disk} {made more : List String → Prop}
  {files others : List (Path × Bytes)} {names : List String}

theorem WrittenAt.mono (h : disk.WrittenAt after files names) (sub : files ⊆ others) :
    disk.WrittenAt after others names := by
  obtain ⟨file, mem, written⟩ := h
  exact ⟨file, sub mem, written⟩

theorem Rewrites.mono (h : disk.Rewrites after made files)
    (places : ∀ names, made names → more names) (sub : files ⊆ others) :
    disk.Rewrites after more others :=
  fun names => (h names).imp (·.mono (places names)) (·.mono sub)

theorem Grows.rewrites (h : disk.Grows after made) (files : List (Path × Bytes)) :
    disk.Rewrites after made files :=
  fun names => .inl (h names)

theorem Wrote.rewrites {path : Path} {content : Bytes} (h : disk.Wrote after path content) :
    disk.Rewrites after path.IsAncestor [(path, content)] := by
  intro names
  by_cases here : names = path.names
  · obtain ⟨place, reaches, file, -⟩ := readFile_eq_ok.mp h.content
    subst here
    rw [reaches.names_eq] at file
    exact .inr ⟨_, List.mem_singleton.mpr rfl, reaches.usable, rfl, h.notDirectory, file⟩
  · exact .inl (h.others names here)

theorem Rewrites.keepsDirectories (h : disk.Rewrites after made files) :
    disk.KeepsDirectories after := by
  intro names there
  rcases h names with grows | ⟨file, -, -, -, notDirectory, -⟩
  · exact grows.keepsDirectory there
  · exact absurd there notDirectory

/-- What is written last counts. -/
theorem Rewrites.trans (first : disk.Rewrites middle made files)
    (second : middle.Rewrites after made files) : disk.Rewrites after made files := by
  intro names
  rcases second names with grows | ⟨file, mem, usable, place, notDirectory, written⟩
  · rcases first names with before | ⟨file, mem, usable, place, notDirectory, written⟩
    · exact .inl (before.trans grows)
    · refine .inr ⟨file, mem, usable, place, notDirectory, ?_⟩
      rcases grows with same | ⟨absent, -, -⟩
      · rw [same, written]
      · rw [written] at absent
        cases absent
  · exact .inr ⟨file, mem, usable, place,
      fun there => notDirectory (first.keepsDirectories names there), written⟩

/-- A file stays as it is unless one of the files is written over it. -/
theorem Rewrites.file {content : Bytes} (h : disk.Rewrites after made files)
    (there : disk.node? names = some (.file content)) :
    after.node? names = some (.file content) ∨ disk.WrittenAt after files names := by
  refine (h names).imp_left fun grows => ?_
  rcases grows with same | ⟨absent, -, -⟩
  · rw [same, there]
  · rw [there] at absent
    cases absent

theorem Rewrites.readFile {path : Path} {content : Bytes} (h : disk.Rewrites after made files)
    (apart : ∀ file ∈ files, path.names ≠ file.1.names)
    (reads : disk.readFile path = .ok content) : after.readFile path = .ok content := by
  obtain ⟨names, reaches, there, short⟩ := readFile_eq_ok.mp reads
  refine readFile_eq_ok.mpr ⟨names, h.keepsDirectories.reaches reaches, ?_, short⟩
  rcases h.file there with same | ⟨file, mem, -, place, -⟩
  · exact same
  · exact absurd (reaches.names_eq.symm.trans place) (apart file mem)

end

/-! ## What is found -/

/-- Where a path leads and nothing is found, nothing stands. -/
theorem node?_of_isThere {disk : Disk} {path : Path} {names : List String}
    (reaches : disk.Reaches path names) (absent : disk.isThere path = .ok false) :
    disk.node? names = none := by
  rw [node?, Entry.node?_eq_none]
  rw [isThere, status, locate, reaches.access] at absent
  cases found : disk.top.find names with
  | ok entry => simp [found, Except.map] at absent
  | error fault =>
    rcases Entry.find_eq_error found with rfl | nothing
    · simp [found, Except.map] at absent
    · exact nothing

/-- A path below which a file is read leads to a directory. -/
theorem hasDirectory_of_readFile {disk : Disk} {path : Path} {tail : List String}
    {content : Bytes} (plain : ".." ∉ tail) (below : tail ≠ [])
    (reads : disk.readFile (path.below tail) = .ok content) :
    ∃ names, disk.HasDirectory path names := by
  obtain ⟨place, ⟨usable, descends⟩, there, short⟩ := readFile_eq_ok.mp reads
  have split := descends
  rw [Path.below, descend_append] at split
  obtain ⟨names, down, on⟩ := bind_eq_ok split
  rw [disk.descend_plain names plain] at on
  cases on
  refine ⟨names, ⟨Path.usable_of_below usable, down⟩, ?_,
    fun name mem => short name (List.mem_append_left _ mem)⟩
  have inside : path.parts.length < (path.below tail).parts.length := by
    rw [Path.below, List.length_append]
    exact Nat.lt_add_of_pos_right (List.length_pos_iff.mpr below)
  have above := descend_ancestor descends (by simp [there]) inside
  rwa [Path.below, List.take_left, ← descend_eq_goDown down] at above

end Disk
end DesignSystem
