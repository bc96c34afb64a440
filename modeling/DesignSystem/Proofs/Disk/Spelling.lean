import DesignSystem.Proofs.Disk.Rewrite
import Mathlib.Data.List.Find

/-! # Two spellings of one directory

A path may lead to a directory with double dots, and be resolved to a path without them. An access
below the directory ends alike under both spellings, but for the path that an error names, if every
double dot leaves a directory and the spellings are too long together.

* `AccessError.fault?`: what is left of an error without its path.
* `Disk.Leads`: every double dot in a path leaves a directory that is there.
* `Disk.Alike`: two spellings of one directory.
* `Disk.Alike.locate`, `Disk.Alike.readFile`, `Disk.Alike.fileNames`: how accesses end below it.
-/

namespace DesignSystem
set_option autoImplicit false

/-- The fault of an error without its path; a NUL in a path is no fault of the disk. -/
def AccessError.fault? : AccessError → Option DiskFault
  | nul => none
  | disk error => some error.fault

/-- What reading an entry as a file gives. -/
def Entry.reading : Entry → Except (Option DiskFault) Bytes
  | file content => .ok content
  | directory _ => .error (some .isDirectory)

/-- What looking for an entry gives, where none is no fault. -/
def Entry.looking : Except (Option DiskFault) Entry → Except DiskFault (Option Entry)
  | .ok entry => .ok (some entry)
  | .error none | .error (some .absent) | .error (some .notDirectory) => .ok none
  | .error (some fault) => .error fault

/-! ## Resolved paths -/

namespace Path

theorem mem_goDown {gone parts : List String} {name : String}
    (h : name ∈ Path.goDown gone parts) : name ∈ gone ∨ name ∈ parts ∧ name ≠ ".." := by
  induction parts generalizing gone with
  | nil => exact .inl h
  | cons part parts ih =>
    rw [goDown] at h
    rcases ih h with mem | ⟨mem, other⟩
    · split at mem
      · exact .inl ((List.dropLast_subset gone) mem)
      · next plain =>
        rcases List.mem_append.mp mem with mem | mem
        · exact .inl mem
        · rw [List.mem_singleton] at mem
          exact .inr ⟨by simp [mem], mem ▸ plain⟩
    · exact .inr ⟨List.mem_cons_of_mem _ mem, other⟩

theorem mem_names {path : Path} {name : String} (h : name ∈ path.names) :
    name ∈ path.parts ∧ name ≠ ".." :=
  (mem_goDown h).resolve_left List.not_mem_nil

theorem names_plain (path : Path) : ".." ∉ path.names := fun mem => (mem_names mem).2 rfl

theorem hasNul_resolve (directory : String) {path : Path} (h : path.hasNul = false) :
    (path.resolve directory).hasNul = false :=
  List.any_eq_false.mpr fun name mem => List.any_eq_false.mp h name (mem_names mem).1

end Path

namespace Disk

/-- Every double dot in a path leaves a directory that is there. -/
def Leads (disk : Disk) (path : Path) : Prop := disk.descend [] path.parts = .ok path.names

theorem HasDirectory.leads {disk : Disk} {path : Path} {names : List String}
    (there : disk.HasDirectory path names) : disk.Leads path := by
  rw [Leads, there.reaches.descends, there.reaches.names_eq]

theorem descend_resolve (disk : Disk) (directory : String) (path : Path) :
    disk.descend [] (path.resolve directory).parts = .ok path.names :=
  disk.descend_plain [] path.names_plain

/-- Two spellings of one directory, neither with a NUL character. -/
structure Alike (disk : Disk) (path other : Path) (names : List String) : Prop where
  leads : disk.descend [] path.parts = .ok names
  leadsOther : disk.descend [] other.parts = .ok names
  noNul : path.hasNul = false
  noNulOther : other.hasNul = false

theorem Leads.alike {disk : Disk} {path : Path} (leads : disk.Leads path)
    (noNul : path.hasNul = false) (directory : String) :
    disk.Alike path (path.resolve directory) path.names :=
  ⟨leads, disk.descend_resolve directory path, noNul, Path.hasNul_resolve directory noNul⟩

/-- Below two spellings of a directory, a path has too many bytes in both or in neither. -/
def LongAlike (path other : Path) (tail : List String) : Prop :=
  isOverlong (path.below tail) = isOverlong (other.below tail)

instance (path other : Path) (tail : List String) : Decidable (LongAlike path other tail) :=
  inferInstanceAs (Decidable (_ = _))

/-! ## Accesses -/

/-- How an access ends, without the path that an error names. -/
theorem access_fault {α : Type} (disk : Disk) {path : Path} {names tail : List String}
    (leads : disk.descend [] path.parts = .ok names) (plain : ".." ∉ tail)
    (run : List String → Except DiskFault α) :
    (disk.access (path.below tail) run).mapError AccessError.fault? =
      if (path.below tail).hasNul then .error none
      else if isOverlong (path.below tail) then .error (some .nameTooLong)
      else (run (names ++ tail)).mapError some := by
  have descends : disk.descend [] (path.below tail).parts = .ok (names ++ tail) := by
    rw [Path.below, descend_append, leads]
    exact disk.descend_plain names plain
  simp only [access, descends, Except.bind, isOverlong, decide_eq_true_eq]
  split
  · rfl
  · split
    · rfl
    · cases run (names ++ tail) <;> rfl

namespace Alike
variable {disk : Disk} {path other : Path} {names tail : List String}
  (alike : disk.Alike path other names)

include alike

theorem access {α : Type} (plain : ".." ∉ tail) (long : LongAlike path other tail)
    (run : List String → Except DiskFault α) :
    (disk.access (path.below tail) run).mapError AccessError.fault? =
      (disk.access (other.below tail) run).mapError AccessError.fault? := by
  rw [disk.access_fault alike.leads plain, disk.access_fault alike.leadsOther plain,
    Path.hasNul_below, Path.hasNul_below, alike.noNul, alike.noNulOther, long]

theorem locate (plain : ".." ∉ tail) (long : LongAlike path other tail) :
    (disk.locate (path.below tail)).mapError AccessError.fault? =
      (disk.locate (other.below tail)).mapError AccessError.fault? :=
  alike.access plain long _

theorem readFile (plain : ".." ∉ tail) (long : LongAlike path other tail) :
    (disk.readFile (path.below tail)).mapError AccessError.fault? =
      (disk.readFile (other.below tail)).mapError AccessError.fault? := by
  have reads (place : Path) : (disk.readFile place).mapError AccessError.fault? =
      ((disk.locate place).mapError AccessError.fault?).bind Entry.reading := by
    unfold Disk.readFile
    rcases disk.locate place with error | entry
    · rfl
    · cases entry <;> rfl
  rw [reads, reads, alike.locate plain long]

theorem status (plain : ".." ∉ tail) (long : LongAlike path other tail) :
    (disk.status (path.below tail)).mapError DiskError.fault =
      (disk.status (other.below tail)).mapError DiskError.fault := by
  have looks (place : Path) : (disk.status place).mapError DiskError.fault =
      Entry.looking ((disk.locate place).mapError AccessError.fault?) := by
    unfold Disk.status
    rcases disk.locate place with (_ | ⟨fault, text⟩) | entry
    · rfl
    · cases fault <;> rfl
    · rfl
  rw [looks, looks, alike.locate plain long]

theorem isDirectory (long : LongAlike path other []) :
    (disk.isDirectory path).mapError DiskError.fault =
      (disk.isDirectory other).mapError DiskError.fault := by
  have looks (place : Path) : (disk.isDirectory place).mapError DiskError.fault =
      ((disk.status place).mapError DiskError.fault).map (·.any Entry.isDirectory) := by
    unfold Disk.isDirectory
    cases disk.status place <;> rfl
  have same := alike.status List.not_mem_nil long
  simp only [Path.below, List.append_nil] at same
  rw [looks, looks, same]

/-! ## Listings -/

omit alike in
theorem filesAmong_fault {directory otherDirectory : Path} {asked : String → Bool}
    {children : List (String × Entry)}
    (long : ∀ name, asked name = true → (children.lookup name).isSome = true →
      isOverlong (directory.child name) = isOverlong (otherDirectory.child name)) :
    (filesAmong directory asked children).mapError DiskError.fault =
      (filesAmong otherDirectory asked children).mapError DiskError.fault := by
  have first : ((Entry.directory children).childNames.filter asked).find?
        (fun name => isOverlong (directory.child name)) =
      ((Entry.directory children).childNames.filter asked).find?
        (fun name => isOverlong (otherDirectory.child name)) := by
    refine List.find?_congr fun name mem => ?_
    obtain ⟨listed, wanted⟩ := List.mem_filter.mp mem
    exact long name wanted (HasDirectory.mem_childNames.mp listed)
  simp only [filesAmong, first]
  split <;> rfl

/-- The files in a folder that are asked for, if the paths of what is in the folder are too long
under both spellings or under neither. -/
theorem fileNames {folder : String} {asked : String → Bool} (plain : ".." ∉ [folder])
    (here : LongAlike path other [folder])
    (long : ∀ name, asked name = true → disk.node? (names ++ [folder, name]) ≠ none →
      LongAlike path other [folder, name]) :
    (disk.fileNames (path.below [folder]) asked).mapError DiskError.fault =
      (disk.fileNames (other.below [folder]) asked).mapError DiskError.fault := by
  have looks := alike.status plain here
  have child (place : Path) (name : String) :
      (place.below [folder]).child name = place.below [folder, name] := by
    simp [Path.below, Path.child]
  unfold Disk.fileNames
  rcases found : disk.status (path.below [folder]) with error | entry <;>
    rcases foundOther : disk.status (other.below [folder]) with otherError | otherEntry <;>
    rw [found, foundOther] at looks
  · exact congrArg Except.error (Except.error.inj looks)
  · cases looks
  · cases looks
  · obtain rfl : entry = otherEntry := Except.ok.inj looks
    rcases entry with _ | _ | children
    · rfl
    · rfl
    · refine filesAmong_fault fun name wanted there => ?_
      rw [child, child]
      refine long name wanted ?_
      obtain ⟨place, reaches, finds⟩ := access_eq_ok.mp (status_eq_ok.mp found)
      obtain rfl : place = names ++ [folder] := by
        have descends := reaches.descends
        rw [Path.below, descend_append, alike.leads, Except.bind,
          disk.descend_plain names plain] at descends
        exact (Except.ok.inj descends).symm
      rw [show names ++ [folder, name] = names ++ [folder] ++ [name] by simp, Disk.node?,
        Entry.node?, Entry.at?_append, (Entry.find_eq_ok.mp finds).1, Option.bind_some, Entry.at?]
      obtain ⟨child, here⟩ := Option.isSome_iff_exists.mp there
      simp [here, Entry.at?]

end Alike
end Disk
end DesignSystem
