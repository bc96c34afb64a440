import DesignSystem.Proofs.Json.Readable
import DesignSystem.Proofs.Tokens.Compiled
import DesignSystem.Proofs.Workspace.Rejected

/-! # Details that can be written

The details of a failure hold parts of a rejected document, or the line and the column of a syntax
fault. On a disk whose files have the sizes of files they can be written, and read back.

* `Disk.Sized`: no file exceeds the size of files.
* `Workspace.details_readable`: the details of a failure to read.
* `Workspace.compile_details_readable`, `Workspace.validate_readable`: those of compiling, and the
  issues of a validation.
-/

namespace DesignSystem
set_option autoImplicit false

open Json

/-! ## Sizes of files -/

/-- Files have fewer bytes, as places in them are counted by 64 bits with a sign. -/
def fileBytesLimit : Nat := 2 ^ 63

namespace Entry

/-- All files have fewer bytes than the limit. -/
inductive Sized : Entry → Prop where
  | file (content : Bytes) (short : content.length < fileBytesLimit) : Sized (file content)
  | directory (children : List (String × Entry)) (each : ∀ child ∈ children, Sized child.2) :
    Sized (directory children)

theorem Sized.at? {entry : Entry} (sized : entry.Sized) {names : List String} {found : Entry}
    (h : at? names entry = some found) : found.Sized := by
  induction names generalizing entry with
  | nil =>
    cases h
    exact sized
  | cons name names ih =>
    cases sized with
    | file content => cases h
    | directory children each =>
      obtain ⟨child, here, h⟩ := Option.bind_eq_some_iff.mp h
      exact ih (each _ (mem_of_lookup here)) h

end Entry

/-- All files of a disk have fewer bytes than the limit. -/
def Disk.Sized (disk : Disk) : Prop := disk.top.Sized

theorem Disk.Sized.readFile {disk : Disk} (sized : disk.Sized) {path : Path} {content : Bytes}
    (reads : disk.readFile path = .ok content) : content.length < fileBytesLimit := by
  obtain ⟨names, -, there, -⟩ := readFile_eq_ok.mp reads
  cases Entry.Sized.at? sized (Entry.node?_eq_file.mp there) with
  | file _ short => exact short

/-! ## Places of syntax faults -/

theorem Slot.parse_place {bytes : Bytes} {fault : SyntaxFault} {line column : Nat}
    (h : Slot.parse bytes = .error (.unparsable (.malformed fault line column))) :
    line ≤ bytes.length + 1 ∧ column ≤ bytes.length + 1 := by
  unfold parse at h
  split at h
  · cases h
  · next text decodes =>
    split at h
    · next stops =>
      cases h
      unfold Json.read at stops
      split at stops
      · cases stops
      · next stop _ =>
        cases stop with
        | syntaxFault kind rest =>
          cases stops
          have place := lineAndColumn_le (universalNewlines text)
            ((universalNewlines text).length - rest.length)
          have length :=
            (length_universalNewlines_le text).trans (Utf8.length_decodeFrom_le decodes)
          exact ⟨place.1.trans (Nat.succ_le_succ length), place.2.trans (Nat.succ_le_succ length)⟩
        | specialWord word => cases stops
        | tooManyDigits count => cases stops
    · cases h

theorem readable_nat {n : Nat} (h : n ≤ fileBytesLimit) : Readable (.int n) := by
  refine ⟨.number _, ?_⟩
  have digits : (digitsOf n).length ≤ 20 :=
    Nat.toDigits_length 10 n 20 (by decide) (Nat.lt_of_le_of_lt h (by decide))
  have short : ¬ maxDigits < (digitsOf n).length := Nat.not_lt.mpr (digits.trans (by decide))
  simp [Json.int, unwritable?, unwritableNumber?, short]

/-! ## Failures -/

namespace Workspace
variable {workspace : Workspace} {disk : Disk}

theorem details_readable (sized : disk.Sized) {address : Address} {failure : Failure}
    (fails : workspace.read disk address = .failed failure) :
    Readable (.object failure.details) := by
  refine details_of_failed readable_cumulative (fun line column stops => ?_)
    (fun document rejects => ?_) fails
  · obtain ⟨slot, -, bytes, fault, reads, parses⟩ := stops
    have size := sized.readFile reads
    have place := Slot.parse_place parses
    exact ⟨readable_nat (place.1.trans size), readable_nat (place.2.trans size)⟩
  · obtain ⟨slot, -, rejects⟩ := rejects
    exact ⟨rejects.built distinct_built, rejects.built writable_built⟩

theorem compile_details_readable (sized : disk.Sized) {platform : Platform} {theme : Theme}
    {failure : Failure} (h : workspace.compile disk platform theme = .failed failure) :
    Readable (.object failure.details) := by
  rcases compile_failed_cases h with ⟨location, -, fails⟩ | ⟨name, ref, rfl⟩
  · exact details_readable sized fails
  · exact readable_cumulative.object (by simp [unknownRef])
      (by simp [unknownRef, readable_cumulative.text])

/-- The issues of a validation, as they are answered. -/
theorem validate_readable (sized : disk.Sized) {report : Report}
    (validates : workspace.validate disk = .ok report) : Readable report.issueDocuments := by
  exact Report.issueDocuments_holds readable_cumulative (validate_reports
    readable_cumulative.toHereditary (fun _ _ fails => details_readable sized fails) validates)

end Workspace
end DesignSystem
