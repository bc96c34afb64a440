import DesignSystem.Proofs.Disk.Below

/-! # Paths that are too long

A directory is found under every spelling of its path that is short enough, but what is in it may
be out of reach under that spelling.

* `Path.usable_of_below`: a path may be used if one that goes on below it may.
* `Path.IsOverlong`: the paths with more bytes than any access takes.
* `Disk.readFile_overlong`, `Disk.fileNames_overlong`: no file is read under such a path, and no
  directory is listed.
* `Path.detour`: a name that is left and entered again several times.
* `Disk.hasDirectory_detour`: where it leads.
-/

namespace DesignSystem
set_option autoImplicit false

/-! ## The length of a path -/

/-- The bytes of a spelling. -/
def Path.byteLength (text : String) : Nat := (Utf8.encode text.toList).length

/-- A path with more bytes than any access takes. -/
structure Path.IsOverlong (path : Path) : Prop where
  noNul : path.hasNul = false
  long : Disk.maxPathBytes < byteLength path.text

namespace Path

theorem byteLength_append (a b : String) : byteLength (a ++ b) = byteLength a + byteLength b := by
  simp [byteLength, Utf8.encode]

theorem slashed_append (parts more : List String) :
    slashed (parts ++ more) = slashed parts ++ slashed more := by
  induction parts with
  | nil => simp [slashed]
  | cons part parts ih => simp only [List.cons_append, slashed, ih, String.append_assoc]

theorem text_below {path : Path} (parts : path.parts ≠ []) (tail : List String) :
    (path.below tail).text = path.text ++ slashed tail := by
  obtain ⟨base, _ | ⟨part, rest⟩⟩ := path
  · exact absurd rfl parts
  · cases base with
    | none => simp [below, text, slashed_append, String.append_assoc]
    | some base =>
      have parts : ∀ more, text ⟨some base, part :: more⟩ = base ++ slashed (part :: more) :=
        fun more => by simp [text]
      rw [below, List.cons_append, parts, parts, ← List.cons_append, slashed_append,
        String.append_assoc]

/-- Where a path that goes on below another one may be used, so may the other one. -/
theorem usable_of_below {path : Path} {tail : List String} (h : (path.below tail).Usable) :
    path.Usable := by
  refine ⟨?_, ?_⟩
  · have noNul := h.noNul
    rw [hasNul_below, Bool.or_eq_false_iff] at noNul
    exact noNul.1
  · have length : byteLength (path.below tail).text ≤ Disk.maxPathBytes := h.length
    change byteLength path.text ≤ Disk.maxPathBytes
    -- the current directory and the top are spelled out, though no path below them spells them so
    obtain ⟨base, _ | ⟨part, rest⟩⟩ := path
    · cases base with
      | none => decide
      | some base =>
        by_cases top : base = ""
        · subst top
          decide
        · refine Nat.le_trans ?_ length
          simp [below, text, top, byteLength_append, slashed]
    · rw [text_below (List.cons_ne_nil part rest), byteLength_append] at length
      exact Nat.le_trans (Nat.le_add_right _ _) length

/-- What stands below a path that is as long as any can be is out of reach. -/
theorem isOverlong_below {path : Path} (parts : path.parts ≠ []) {tail : List String}
    (noNul : (path.below tail).hasNul = false)
    (long : Disk.maxPathBytes < byteLength path.text + byteLength (slashed tail)) :
    (path.below tail).IsOverlong :=
  ⟨noNul, by rwa [text_below parts, byteLength_append]⟩

end Path

/-! ## Accesses -/

namespace Disk

theorem access_overlong {α : Type} (disk : Disk) {path : Path} (h : path.IsOverlong)
    (run : List String → Except DiskFault α) :
    disk.access path run = .error (.disk ⟨.nameTooLong, path.text⟩) := by
  have long := h.long
  rw [Path.byteLength] at long
  rw [access, h.noNul, if_neg (by decide), if_pos long]

theorem readFile_overlong (disk : Disk) {path : Path} (h : path.IsOverlong) :
    disk.readFile path = .error (.disk ⟨.nameTooLong, path.text⟩) := by
  rw [readFile, locate, disk.access_overlong h]

theorem fileNames_overlong (disk : Disk) {path : Path} (h : path.IsOverlong)
    (asked : String → Bool) :
    disk.fileNames path asked = .error ⟨.nameTooLong, path.text⟩ := by
  rw [fileNames, status, locate, disk.access_overlong h]
  rfl

end Disk

/-! ## Detours -/

/-- A name that is left and entered again a number of times. -/
def Path.detour (name : String) (times : Nat) : Path :=
  ⟨none, name :: (List.replicate times ["..", name]).flatten⟩

namespace Path

/-- Each time takes up the name, two dots and two slashes. -/
theorem byteLength_detour (name : String) (times : Nat) :
    byteLength (detour name times).text =
      byteLength name + times * (byteLength name + 4) := by
  have loop : byteLength (slashed (List.replicate times ["..", name]).flatten) =
      times * (byteLength name + 4) := by
    induction times with
    | zero => simp [slashed, byteLength, Utf8.encode]
    | succ times ih =>
      have slash : byteLength "/" = 1 := by decide
      have dots : byteLength ".." = 2 := by decide
      have nothing : byteLength "" = 0 := by decide
      rw [List.replicate_succ, List.flatten_cons, slashed_append, byteLength_append, ih]
      simp only [slashed, byteLength_append, slash, dots, nothing, Nat.succ_mul]
      omega
  rw [detour, text, byteLength_append, loop]

end Path

namespace Disk

theorem descend_detour {disk : Disk} {name : String} {children : List (String × Entry)}
    (found : disk.top.find [name] = .ok (.directory children)) (plain : name ≠ "..")
    (times : Nat) :
    disk.descend [name] (List.replicate times ["..", name]).flatten = .ok [name] := by
  induction times with
  | zero => rfl
  | succ times ih =>
    rw [List.replicate_succ, List.flatten_cons, List.cons_append, List.cons_append,
      List.nil_append, descend, if_pos rfl, found]
    simp only [List.dropLast_singleton]
    rw [descend, if_neg plain, List.nil_append, ih]

theorem hasDirectory_detour {disk : Disk} {name : String} {children : List (String × Entry)}
    (found : disk.top.find [name] = .ok (.directory children)) (plain : name ≠ "..")
    (noNul : name.toList.contains '\x00' = false) {times : Nat}
    (short : Path.byteLength name + times * (Path.byteLength name + 4) ≤ maxPathBytes) :
    disk.HasDirectory (.detour name times) [name] := by
  obtain ⟨node, names⟩ := find_directory.mp ⟨_, found⟩
  refine ⟨⟨⟨?_, ?_⟩, ?_⟩, node, names⟩
  · have each : ∀ part ∈ (Path.detour name times).parts, part = name ∨ part = ".." := by
      simp only [Path.detour, List.mem_cons, List.mem_flatten, List.mem_replicate]
      rintro part (rfl | ⟨_, ⟨-, rfl⟩, mem⟩)
      · exact .inl rfl
      · simpa [or_comm] using mem
    rw [Path.hasNul, List.any_eq_false]
    intro part mem
    rcases each part mem with rfl | rfl
    · simpa using noNul
    · simp
  · exact Nat.le_trans (Nat.le_of_eq (Path.byteLength_detour name times)) short
  · rw [Path.detour, descend, if_neg plain, List.nil_append, descend_detour found plain]

end Disk
end DesignSystem
