import DesignSystem.Proofs.Disk.Rewrite

/-! # Where names lead, and what a read depends on

* `Path.join`: a path with a text put behind it, as a text of a path is taken apart.
* `Path.join_eq_child`: a text without a slash is a part of its own.
* `Disk.AgreeAt`: two disks that differ in no more than what other files hold.
* `Disk.readFile_of_agreeAt`: no other file decides what reading a file gives.
-/

namespace DesignSystem
set_option autoImplicit false

/-! ## Joined paths -/

namespace Path

/-- A path with a text put behind it. A text that starts with a slash takes the place of the
path. -/
def join (path : Path) (text : String) : Path :=
  match (ofText text).base with
  | some _ => ofText text
  | none => { path with parts := path.parts ++ (ofText text).parts }

theorem splitSlash_eq_self {text : List Char} (noSlash : '/' ∉ text) : splitSlash text = [text] := by
  induction text with
  | nil => rfl
  | cons c text ih =>
    rw [List.mem_cons, not_or] at noSlash
    rw [splitSlash, if_neg (Ne.symm noSlash.1), ih noSlash.2]

/-- A text without a slash is one part, if it is not left out. -/
theorem join_eq_child (path : Path) {text : String} (noSlash : '/' ∉ text.toList)
    (nonempty : text ≠ "") (notDot : text ≠ ".") : path.join text = path.child text := by
  have relative : (ofText text).base = none := by
    rw [ofText, if_neg]
    exact fun first => noSlash (List.mem_of_head? first)
  have parts : (ofText text).parts = [text] := by
    simp [ofText, partsOf, splitSlash_eq_self noSlash, nonempty, notDot]
  rw [join, relative, parts, child]

example : join (ofText "a/b") "/etc/x" = ofText "/etc/x" ∧
    join (ofText "a/b") "../x//." = ofText "a/b/../x" := by decide

end Path

/-! ## Disks that differ in other files -/

def Node.isFile : Node → Bool
  | file _ => true
  | directory => false

/-- Two trees have files and directories at the same places. -/
def Entry.SameKinds (entry other : Entry) : Prop :=
  ∀ names, (node? names entry).map Node.isFile = (node? names other).map Node.isFile

/-- Two disks have files and directories at the same places, and the same at one of them; other
files may hold anything. -/
structure Disk.AgreeAt (disk other : Disk) (place : List String) : Prop where
  kinds : disk.top.SameKinds other.top
  here : disk.node? place = other.node? place

namespace Entry
variable {entry other : Entry}

theorem SameKinds.child {children others : List (String × Entry)}
    (same : SameKinds (directory children) (directory others)) (name : String) :
    (children.lookup name = none ∧ others.lookup name = none) ∨
      ∃ child twin, children.lookup name = some child ∧ others.lookup name = some twin ∧
        SameKinds child twin := by
  have here := same [name]
  rw [node?, node?, at?, at?] at here
  cases found : children.lookup name with
  | none =>
    cases twins : others.lookup name with
    | none => exact .inl ⟨rfl, rfl⟩
    | some twin => simp [found, twins, at?] at here
  | some child =>
    cases twins : others.lookup name with
    | none => simp [found, twins, at?] at here
    | some twin =>
      refine .inr ⟨child, twin, rfl, rfl, fun names => ?_⟩
      have below := same (name :: names)
      rw [node?, node?, at?, at?, found, twins] at below
      exact below

/-- Names lead to one fault, or to entries of one kind. -/
theorem SameKinds.find_cases (same : SameKinds entry other) (names : List String) :
    (∃ fault, find names entry = .error fault ∧ find names other = .error fault) ∨
    (∃ content twin, find names entry = .ok (file content) ∧ find names other = .ok (file twin)) ∨
    ∃ children others,
      find names entry = .ok (directory children) ∧ find names other = .ok (directory others) := by
  have top := same []
  induction names generalizing entry other with
  | nil =>
    cases entry <;> cases other <;> simp_all [find, node?, at?, node, Node.isFile]
  | cons name names ih =>
    cases entry with
    | file content =>
      cases other with
      | file twin => exact .inl ⟨_, rfl, rfl⟩
      | directory others => simp [node?, at?, node, Node.isFile] at top
    | directory children =>
      cases other with
      | file twin => simp [node?, at?, node, Node.isFile] at top
      | directory others =>
        rw [find, find]
        split
        · exact .inl ⟨_, rfl, rfl⟩
        · rcases same.child name with ⟨absent, missing⟩ | ⟨child, twin, found, twins, below⟩
          · rw [absent, missing]
            exact .inl ⟨_, rfl, rfl⟩
          · rw [found, twins]
            exact ih below (below [])

end Entry

namespace Disk
variable {disk other : Disk}

/-- Double dots leave the same directories. -/
theorem descend_of_sameKinds (same : disk.top.SameKinds other.top) (gone parts : List String) :
    disk.descend gone parts = other.descend gone parts := by
  induction parts generalizing gone with
  | nil => rfl
  | cons part parts ih =>
    rw [descend, descend]
    split
    · rcases same.find_cases gone with ⟨fault, left, right⟩ | ⟨content, twin, left, right⟩ |
        ⟨children, others, left, right⟩
      · rw [left, right]
      · rw [left, right]
      · rw [left, right]
        exact ih _
    · exact ih _

/-- What reading a file gives is decided by the places of files and directories and by what is at
its own place. -/
theorem readFile_of_agreeAt {path : Path} (agree : disk.AgreeAt other path.names) :
    disk.readFile path = other.readFile path := by
  have same := descend_of_sameKinds agree.kinds [] path.parts
  -- a path that may not be used is refused before the disk is looked at
  by_cases nul : path.hasNul = true
  · simp only [readFile, locate, access, nul, if_true]
  by_cases long : maxPathBytes < (Utf8.encode path.text.toList).length
  · simp only [readFile, locate, access, long, if_true]
  have usable : path.Usable := ⟨eq_false_of_ne_true nul, Nat.le_of_not_lt long⟩
  cases descends : disk.descend [] path.parts with
  | error fault => simp only [readFile, locate, access, ← same, descends, Except.bind]
  | ok names =>
    obtain rfl : names = path.names := descend_eq_goDown descends
    have reaches : disk.Reaches path path.names := ⟨usable, descends⟩
    have reachesToo : other.Reaches path path.names := ⟨usable, same ▸ descends⟩
    rw [readFile, readFile, locate, locate, reaches.access, reachesToo.access]
    rcases agree.kinds.find_cases path.names with ⟨fault, left, right⟩ |
      ⟨content, twin, left, right⟩ | ⟨children, others, left, right⟩
    · rw [left, right]
    · have here := agree.here
      rw [(find_file.mp left).1, (find_file.mp right).1] at here
      cases here
      rw [left, right]
    · rw [left, right]
      rfl

/-- Another file may be overwritten. -/
theorem agreeAt_of_overwrite {after : Disk} {path : Path} {before content : Bytes}
    (writes : disk.writeFile path content = .ok after)
    (there : disk.node? path.names = some (.file before)) {place : List String}
    (apart : place ≠ path.names) : disk.AgreeAt after place := by
  obtain ⟨names, reaches, -, -, nodes⟩ := writeFile_eq_ok writes
  obtain rfl := reaches.names_eq
  refine ⟨fun other => ?_, by rw [nodes, if_neg apart]⟩
  change (disk.node? other).map Node.isFile = (after.node? other).map Node.isFile
  rw [nodes]
  split
  · next same => rw [same, there]; rfl
  · rfl

end Disk
end DesignSystem
