import DesignSystem.Proofs.Disk.Rewrite

/-! # Files that can be written again

A file that can be read can be written, and the directory that it is in need not be made.

* `Entry.alter_of_find`: a change of an entry that names lead to goes through if the entry takes it.
* `Disk.makeDirectories_of_readFile`, `Disk.writeFile_of_readFile`: both steps of a write.
-/

namespace DesignSystem
set_option autoImplicit false

/-- How an entry that names lead to takes a change is how the tree takes it. -/
theorem Entry.alter_of_find {names : List String} {entry found : Entry}
    (leads : find names entry = .ok found) :
    ∃ around : Entry → Entry, ∀ change,
      alter change names entry = (change (some found)).map around := by
  induction names generalizing entry with
  | nil =>
    cases leads
    refine ⟨id, fun change => ?_⟩
    rw [alter]
    cases change (some found) <;> rfl
  | cons name names ih =>
    cases entry with
    | file content => cases leads
    | directory children =>
      unfold find at leads
      split at leads
      · cases leads
      · next short =>
        cases here : children.lookup name with
        | none =>
          rw [here] at leads
          cases leads
        | some child =>
          rw [here] at leads
          obtain ⟨around, alters⟩ := ih leads
          refine ⟨fun new => directory (insertEntry children name (around new)), fun change => ?_⟩
          unfold alter
          simp only [short, here, alters change]
          cases change (some found) <;> rfl

namespace Disk
variable {disk : Disk} {path : Path}

/-- A directory that is there need not be made. -/
theorem makeDirectories_of_hasDirectory {names : List String} (h : disk.HasDirectory path names) :
    disk.makeDirectories path = (disk, none) := by
  obtain ⟨children, leads⟩ := find_directory.mpr ⟨h.directory, h.short⟩
  obtain ⟨around, alters⟩ := Entry.alter_of_find leads
  have taken : disk.makeDirectory path = .error (.disk ⟨.alreadyThere, path.text⟩) := by
    rw [makeDirectory, alter, h.reaches.access, alters]
    rfl
  have settles : ∀ error, disk.settle path (.disk error) = none := fun error => by
    rw [settle, isDirectory_eq_ok.mpr ⟨names, h⟩]
  obtain ⟨base, parts⟩ := path
  unfold makeDirectories
  cases reversed : parts.reverse with
  | nil => rfl
  | cons part above =>
    have same : (part :: above).reverse = parts := by rw [← reversed, List.reverse_reverse]
    simp only [ensure, same, taken, settles]

/-- The directory of a file that is there need not be made. -/
theorem makeDirectories_of_readFile {content : Bytes} {name : String} {directory : Path}
    (plain : name ≠ "..") (reads : disk.readFile (directory.child name) = .ok content) :
    disk.makeDirectories directory = (disk, none) := by
  have dotless : ".." ∉ [name] := by simpa using plain.symm
  obtain ⟨names, h⟩ := hasDirectory_of_readFile dotless (List.cons_ne_nil _ _) reads
  exact makeDirectories_of_hasDirectory h

/-- A file that is there can be written. -/
theorem writeFile_of_readFile {content : Bytes} (reads : disk.readFile path = .ok content)
    (new : Bytes) : ∃ after, disk.writeFile path new = .ok after := by
  obtain ⟨names, reaches, there, short⟩ := readFile_eq_ok.mp reads
  obtain ⟨around, alters⟩ := Entry.alter_of_find (find_file.mpr ⟨there, short⟩)
  exact ⟨ofTop (around (.file new)), by rw [writeFile, alter, reaches.access, alters]; rfl⟩

end Disk
end DesignSystem
