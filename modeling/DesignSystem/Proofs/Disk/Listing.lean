import DesignSystem.Proofs.Disk.Rewrite
import Mathlib.Data.List.Nodup

/-! # Listing a directory

* `IsFileName`, `Entry.Named`: the names that entries have.
* `Disk.HasFile`: a regular file is found at a path.
* `Disk.Listable`: nothing that is asked for in a directory is out of reach.
* `Disk.fileNames_returns`: a directory is listed exactly then.
* `Disk.listable_of_room`: so it is if its path leaves room for any name.
* `Disk.mem_fileNames`, `Disk.increasing_fileNames`: what the list holds, and its order.
-/

namespace DesignSystem
set_option autoImplicit false

/-! ## Names of files -/

/-- A name that an entry of a directory can have. -/
structure IsFileName (name : String) : Prop where
  noSlash : '/' ∉ name.toList
  noNul : '\x00' ∉ name.toList
  short : Entry.isTooLong name = false

instance (name : String) : Decidable (IsFileName name) :=
  decidable_of_iff
    ('/' ∉ name.toList ∧ '\x00' ∉ name.toList ∧ Entry.isTooLong name = false)
    ⟨fun h => ⟨h.1, h.2.1, h.2.2⟩, fun h => ⟨h.noSlash, h.noNul, h.short⟩⟩

namespace Entry

/-- All entries below an entry have names that entries can have. -/
inductive Named : Entry → Prop where
  | file (content : Bytes) : Named (.file content)
  | directory {children : List (String × Entry)} (names : ∀ child ∈ children, IsFileName child.1)
      (entries : ∀ child ∈ children, Named child.2) : Named (.directory children)

theorem Named.find {names : List String} {entry found : Entry} (named : Named entry)
    (h : find names entry = .ok found) : Named found := by
  induction names generalizing entry with
  | nil =>
    cases h
    exact named
  | cons name names ih =>
    cases named with
    | file content => cases h
    | directory _ entries =>
      rw [Entry.find] at h
      split at h
      · cases h
      · split at h
        · cases h
        · next child here => exact ih (entries _ (mem_of_lookup here)) h

theorem Named.fileName {children : List (String × Entry)} {name : String}
    (named : Named (.directory children)) (there : (children.lookup name).isSome = true) :
    IsFileName name := by
  obtain ⟨child, found⟩ := Option.isSome_iff_exists.mp there
  cases named with
  | directory names _ => exact names _ (mem_of_lookup found)

end Entry

/-! ## Order -/

theorem nodup_eraseDups (names : List String) : names.eraseDups.Nodup := by
  cases names with
  | nil => exact List.nodup_nil
  | cons name names =>
    rw [List.eraseDups_cons, List.nodup_cons, List.mem_eraseDups]
    exact ⟨by simp, nodup_eraseDups _⟩
termination_by names.length
decreasing_by exact Nat.lt_succ_of_le (List.length_filter_le _ _)

theorem increasing_mergeSort {names : List String} (distinct : names.Nodup) :
    names.mergeSort.Pairwise (· < ·) := by
  have sorted : names.mergeSort.Pairwise (· ≤ ·) := by
    simpa only [decide_eq_true_eq] using @List.pairwise_mergeSort String (fun a b => decide (a ≤ b))
      (fun a b c => by simpa only [decide_eq_true_eq] using String.le_trans)
      (fun a b => by simpa using String.le_total a b) names
  exact (sorted.and (List.nodup_mergeSort.mpr distinct)).imp fun ⟨le, ne⟩ =>
    Std.lt_of_le_of_ne le ne

namespace Disk
variable {disk : Disk} {path : Path} {name : String} {asked : String → Bool} {found : List String}

theorem increasing_fileNames (lists : disk.fileNames path asked = .ok found) :
    found.Pairwise (· < ·) := by
  obtain ⟨entry, -, lists⟩ := bind_eq_ok lists
  split at lists
  · simp only [filesAmong] at lists
    split at lists
    · cases lists
    · cases lists
      exact ((increasing_mergeSort (nodup_eraseDups _)).filter _).filter _
  · cases lists
    exact .nil

/-! ## Files in a directory -/

/-- A regular file is found at a path. -/
def HasFile (disk : Disk) (path : Path) : Prop := disk.isFile path = .ok true

instance (disk : Disk) (path : Path) : Decidable (disk.HasFile path) :=
  inferInstanceAs (Decidable (disk.isFile path = .ok true))

theorem hasFile_iff : disk.HasFile path ↔ ∃ content, disk.readFile path = .ok content := by
  have opened : disk.HasFile path ↔ ∃ content, disk.locate path = .ok (.file content) := by
    simp only [← status_eq_ok]
    unfold HasFile isFile
    cases disk.status path with
    | error error => simp [Except.map]
    | ok found =>
      cases found with
      | none => simp [Except.map]
      | some entry => cases entry <;> simp [Except.map, Entry.isFile]
  rw [opened]
  refine exists_congr fun content => ?_
  unfold readFile
  split <;> simp_all

/-- What stands in a directory, and what is listed of it. -/
theorem HasDirectory.listed {names : List String} (h : disk.HasDirectory path names) :
    ∃ children, disk.top.find names = .ok (.directory children) ∧
      (∀ name, disk.node? (names ++ [name]) = (children.lookup name).map Entry.node) ∧
      ∀ asked, disk.fileNames path asked = filesAmong path asked children := by
  obtain ⟨children, finds⟩ := find_directory.mpr ⟨h.directory, h.short⟩
  refine ⟨children, finds, fun name => ?_, fun asked => ?_⟩
  · rw [node?, Entry.node?, Entry.at?_append, (Entry.find_eq_ok.mp finds).1, Option.bind_some,
      Entry.at?]
    cases children.lookup name <;> rfl
  · have looks : disk.status path = .ok (some (.directory children)) :=
      status_eq_ok.mpr (access_eq_ok.mpr ⟨names, h.reaches, finds⟩)
    rw [fileNames, looks]
    rfl

theorem fileNames_missing (missing : disk.isDirectory path = .ok false) (asked : String → Bool) :
    disk.fileNames path asked = .ok [] := by
  obtain ⟨entry, looks, noDirectory⟩ := map_eq_ok missing
  rw [fileNames, looks]
  cases entry with
  | none => rfl
  | some entry =>
    cases entry with
    | file content => rfl
    | directory children => cases noDirectory

theorem isDirectory_of_fileNames (lists : disk.fileNames path asked = .ok found) :
    ∃ there, disk.isDirectory path = .ok there := by
  obtain ⟨entry, looks, -⟩ := bind_eq_ok lists
  exact ⟨_, by rw [isDirectory, looks]; rfl⟩

/-- A directory is looked for under a path that is not too long, and so is what is asked for in
it. -/
structure Listable (disk : Disk) (path : Path) (asked : String → Bool) : Prop where
  looks : ∃ there, disk.isDirectory path = .ok there
  inReach : ∀ names name, disk.HasDirectory path names → asked name = true →
    disk.node? (names ++ [name]) ≠ none → isOverlong (path.child name) = false

theorem fileNames_returns :
    (∃ found, disk.fileNames path asked = .ok found) ↔ disk.Listable path asked := by
  constructor
  · rintro ⟨found, lists⟩
    refine ⟨isDirectory_of_fileNames lists, fun names name directory wanted there => ?_⟩
    obtain ⟨children, -, nodes, among⟩ := directory.listed
    rw [among] at lists
    rw [nodes, Ne, Option.map_eq_none_iff, ← Ne, Option.ne_none_iff_isSome] at there
    exact HasDirectory.filesAmong_eq_ok.mp ⟨found, lists⟩ name wanted there
  · rintro ⟨⟨_ | _, looks⟩, inReach⟩
    · exact ⟨[], fileNames_missing looks asked⟩
    · obtain ⟨names, directory⟩ := isDirectory_eq_ok.mp looks
      obtain ⟨children, -, nodes, among⟩ := directory.listed
      rw [among]
      refine HasDirectory.filesAmong_eq_ok.mpr fun name wanted there => ?_
      refine inReach names name directory wanted ?_
      rwa [nodes, Ne, Option.map_eq_none_iff, ← Ne, Option.ne_none_iff_isSome]

/-- Nothing is out of reach in a directory whose path leaves room for any name. -/
theorem listable_of_room (named : disk.top.Named) (parts : path.parts ≠ [])
    (room : Path.byteLength path.text + 1 + Entry.maxNameBytes ≤ maxPathBytes) {there : Bool}
    (looks : disk.isDirectory path = .ok there) (asked : String → Bool) :
    disk.Listable path asked := by
  refine ⟨⟨there, looks⟩, fun names name directory _ there => decide_eq_false ?_⟩
  obtain ⟨children, finds, nodes, -⟩ := directory.listed
  rw [nodes, Ne, Option.map_eq_none_iff, ← Ne, Option.ne_none_iff_isSome] at there
  have short : Path.byteLength name ≤ Entry.maxNameBytes :=
    Nat.le_of_not_lt (of_decide_eq_false ((named.find finds).fileName there).short)
  have tail : Path.byteLength (Path.slashed [name]) = 1 + Path.byteLength name := by
    have slash : Path.byteLength "/" = 1 := by decide
    have nothing : Path.byteLength "" = 0 := by decide
    rw [Path.slashed, Path.slashed, Path.byteLength_append, Path.byteLength_append, slash, nothing,
      Nat.add_zero]
  change ¬ maxPathBytes < Path.byteLength (path.below [name]).text
  rw [Path.text_below parts, Path.byteLength_append, tail]
  omega

/-- A listed name is one of a file in a directory. -/
theorem listed_of_mem_fileNames (lists : disk.fileNames path asked = .ok found)
    (mem : name ∈ found) :
    ∃ names children content, disk.HasDirectory path names ∧
      disk.top.find names = .ok (.directory children) ∧
      children.lookup name = some (.file content) ∧ asked name = true ∧
      isOverlong (path.child name) = false := by
  obtain ⟨there, looks⟩ := isDirectory_of_fileNames lists
  cases there with
  | false =>
    rw [fileNames_missing looks] at lists
    cases lists
    cases mem
  | true =>
    obtain ⟨names, directory⟩ := isDirectory_eq_ok.mp looks
    obtain ⟨children, finds, -, among⟩ := directory.listed
    rw [among] at lists
    obtain ⟨wanted, content, file⟩ := (HasDirectory.mem_filesAmong lists).mp mem
    exact ⟨names, children, content, directory, finds, file, wanted,
      HasDirectory.filesAmong_eq_ok.mp ⟨found, lists⟩ name wanted (by simp [file])⟩

/-- A listed file can be read. -/
theorem readFile_of_fileNames (lists : disk.fileNames path asked = .ok found)
    (listed : name ∈ found) (fileName : IsFileName name) (plain : ".." ∉ [name]) :
    ∃ content, disk.readFile (path.child name) = .ok content := by
  obtain ⟨names, children, content, directory, finds, file, -, inReach⟩ :=
    listed_of_mem_fileNames lists listed
  refine ⟨content, (directory.readFile_below plain).mpr ⟨⟨?_, ?_⟩, ?_, ?_⟩⟩
  · rw [Path.hasNul_below, directory.reaches.usable.noNul]
    simp [fileName.noNul]
  · exact Nat.le_of_not_lt (of_decide_eq_false inReach)
  · exact List.forall_mem_append.mpr ⟨directory.short, by simpa using fileName.short⟩
  · rw [node?, Entry.node?_eq_file, Entry.at?_append, (Entry.find_eq_ok.mp finds).1,
      Option.bind_some, Entry.at?, file]
    rfl

/-- The regular files that are asked for in a directory are listed. -/
theorem mem_fileNames (named : disk.top.Named) (lists : disk.fileNames path asked = .ok found)
    (plain : name ≠ "..") :
    name ∈ found ↔ asked name = true ∧ disk.HasFile (path.child name) := by
  have plain : ".." ∉ [name] := by simpa using Ne.symm plain
  constructor
  · intro mem
    obtain ⟨names, children, content, directory, finds, file, wanted, -⟩ :=
      listed_of_mem_fileNames lists mem
    have there : (children.lookup name).isSome = true := by simp [file]
    have fileName := (named.find finds).fileName there
    exact ⟨wanted, hasFile_iff.mpr (readFile_of_fileNames lists mem fileName plain)⟩
  · rintro ⟨wanted, file⟩
    obtain ⟨content, reads⟩ := hasFile_iff.mp file
    obtain ⟨names, directory⟩ : ∃ names, disk.HasDirectory path names :=
      hasDirectory_of_readFile plain (List.cons_ne_nil _ _) reads
    obtain ⟨children, -, nodes, among⟩ := directory.listed
    obtain ⟨-, -, file⟩ := (directory.readFile_below plain).mp reads
    rw [among] at lists
    refine (HasDirectory.mem_filesAmong lists).mpr ⟨wanted, content, ?_⟩
    rw [nodes] at file
    cases looked : children.lookup name with
    | none => simp [looked] at file
    | some entry => cases entry <;> simp_all [Entry.node]

end Disk
end DesignSystem
