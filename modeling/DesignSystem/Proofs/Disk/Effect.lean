import DesignSystem.Disk.Basic
import DesignSystem.Proofs.Disk.Tree

/-! # What operations do to a disk

* `Disk.node?`: what stands at a place of a disk.
* `Path.Usable`, `Disk.Reaches`: the paths that may be used, and where they lead.
* `Path.IsAncestor`: the places of the directories above a path.
* `Disk.Grows`: nothing changes but that directories are made at some places.
* `Disk.Wrote`: a file and the directories above it are there, and nothing else changes.
* `Disk.makeDirectories_grows`, `Disk.writeFile_eq_ok`: the effects of the two operations.
* `Disk.place?`: both operations together, where they succeed.
-/

namespace DesignSystem
set_option autoImplicit false

open DesignSystem.Path (goDown)

/-- A path without NUL characters that is not too long. -/
structure Path.Usable (path : Path) : Prop where
  noNul : path.hasNul = false
  length : (Utf8.encode path.text.toList).length ≤ Disk.maxPathBytes

namespace Disk

/-- What stands at a place. -/
def node? (disk : Disk) (names : List String) : Option Node := disk.top.node? names

theorem node?_nil (disk : Disk) : disk.node? [] = some .directory := rfl

/-! ## Names that are looked for -/

/-- Names that may be looked for. -/
def Short (names : List String) : Prop := ∀ name ∈ names, Entry.isTooLong name = false

instance (names : List String) : Decidable (Short names) :=
  inferInstanceAs (Decidable (∀ name ∈ names, Entry.isTooLong name = false))

theorem find_file {disk : Disk} {names : List String} {content : Bytes} :
    disk.top.find names = .ok (.file content) ↔
      disk.node? names = some (.file content) ∧ Short names := by
  rw [Entry.find_eq_ok, node?, Entry.node?_eq_file]
  rfl

theorem find_directory {disk : Disk} {names : List String} :
    (∃ children, disk.top.find names = .ok (.directory children)) ↔
      disk.node? names = some .directory ∧ Short names := by
  rw [node?, Entry.node?_eq_directory]
  constructor
  · rintro ⟨children, found⟩
    obtain ⟨there, short⟩ := Entry.find_eq_ok.mp found
    exact ⟨⟨children, there⟩, short⟩
  · rintro ⟨⟨children, there⟩, short⟩
    exact ⟨children, Entry.find_eq_ok.mpr ⟨there, short⟩⟩

/-! ## Where paths lead -/

/-- A path that may be used leads to these names. -/
structure Reaches (disk : Disk) (path : Path) (names : List String) : Prop where
  usable : path.Usable
  descends : disk.descend [] path.parts = .ok names

theorem Reaches.access {α : Type} {disk : Disk} {path : Path} {names : List String}
    (h : disk.Reaches path names) (run : List String → Except DiskFault α) :
    disk.access path run = (run names).mapError fun fault => .disk ⟨fault, path.text⟩ := by
  rw [Disk.access, h.usable.noNul, if_neg (by decide), if_neg (Nat.not_lt.mpr h.usable.length),
    h.descends, Except.bind]
  cases run names <;> rfl

theorem access_eq_ok {α : Type} {disk : Disk} {path : Path} {run : List String → Except DiskFault α}
    {value : α} : disk.access path run = .ok value ↔
      ∃ names, disk.Reaches path names ∧ run names = .ok value := by
  unfold access
  constructor
  · intro h
    split at h
    · cases h
    · next noNul =>
      split at h
      · cases h
      · next short =>
        split at h
        · next descends =>
          cases h
          obtain ⟨names, down, runs⟩ := bind_eq_ok descends
          exact ⟨names, ⟨⟨eq_false_of_ne_true noNul, Nat.le_of_not_lt short⟩, down⟩, runs⟩
        · cases h
  · rintro ⟨names, reaches, runs⟩
    have accessed := reaches.access run
    rw [runs] at accessed
    exact accessed

/-- Double dots cancel the parts before them, as the directories they leave are there. -/
theorem descend_eq_goDown {disk : Disk} {gone parts names : List String}
    (h : disk.descend gone parts = .ok names) : names = goDown gone parts := by
  induction parts generalizing gone with
  | nil => exact (Except.ok.inj h).symm
  | cons part parts ih =>
    rw [descend] at h
    rw [goDown]
    split at h
    · next up =>
      split at h
      · rw [if_pos up]
        exact ih h
      · cases h
      · cases h
    · next down =>
      rw [if_neg down]
      exact ih h

theorem Reaches.names_eq {disk : Disk} {path : Path} {names : List String}
    (h : disk.Reaches path names) : names = path.names :=
  descend_eq_goDown h.descends

theorem readFile_eq_ok {disk : Disk} {path : Path} {content : Bytes} :
    disk.readFile path = .ok content ↔ ∃ names, disk.Reaches path names ∧
      disk.node? names = some (.file content) ∧ Short names := by
  have located : disk.readFile path = .ok content ↔ disk.locate path = .ok (.file content) := by
    unfold readFile
    split <;> simp_all
  rw [located, locate, access_eq_ok]
  simp only [find_file]

/-! ## Growth -/

/-- After a growth every directory is still one. -/
def KeepsDirectories (disk after : Disk) : Prop :=
  ∀ names, disk.node? names = some .directory → after.node? names = some .directory

theorem KeepsDirectories.descend {disk after : Disk} (keeps : disk.KeepsDirectories after)
    {gone parts names : List String} (h : disk.descend gone parts = .ok names) :
    after.descend gone parts = .ok names := by
  induction parts generalizing gone with
  | nil => exact h
  | cons part parts ih =>
    rw [Disk.descend] at h ⊢
    split at h
    · next up =>
      split at h
      · next children found =>
        obtain ⟨there, short⟩ := find_directory.mp ⟨children, found⟩
        obtain ⟨children, found⟩ := find_directory.mpr ⟨keeps gone there, short⟩
        rw [if_pos up, found]
        exact ih h
      · cases h
      · cases h
    · next down =>
      rw [if_neg down]
      exact ih h

theorem KeepsDirectories.reaches {disk after : Disk} (keeps : disk.KeepsDirectories after)
    {path : Path} {names : List String} (h : disk.Reaches path names) : after.Reaches path names :=
  ⟨h.usable, keeps.descend h.descends⟩

/-- Nothing changes at a place but that a directory may be made where nothing was. -/
def GrowsAt (disk after : Disk) (made : List String → Prop) (names : List String) : Prop :=
  after.node? names = disk.node? names ∨
    disk.node? names = none ∧ after.node? names = some .directory ∧ made names

/-- Nothing changes but that directories are made at some places where nothing was. -/
def Grows (disk after : Disk) (made : List String → Prop) : Prop :=
  ∀ names, disk.GrowsAt after made names

theorem Grows.refl (disk : Disk) (made : List String → Prop) : disk.Grows disk made :=
  fun _ => .inl rfl

theorem GrowsAt.trans {disk middle after : Disk} {made : List String → Prop} {names : List String}
    (first : disk.GrowsAt middle made names) (second : middle.GrowsAt after made names) :
    disk.GrowsAt after made names := by
  rcases second with same | ⟨absent, there, place⟩
  · rcases first with before | ⟨absent, there, place⟩
    · exact .inl (same.trans before)
    · exact .inr ⟨absent, same.trans there, place⟩
  · rcases first with before | ⟨_, other, _⟩
    · exact .inr ⟨before ▸ absent, there, place⟩
    · rw [absent] at other
      cases other

theorem GrowsAt.mono {disk after : Disk} {made more : List String → Prop} {names : List String}
    (h : disk.GrowsAt after made names) (sub : made names → more names) :
    disk.GrowsAt after more names :=
  h.imp_right fun ⟨absent, there, place⟩ => ⟨absent, there, sub place⟩

theorem GrowsAt.keepsDirectory {disk after : Disk} {made : List String → Prop}
    {names : List String} (h : disk.GrowsAt after made names)
    (there : disk.node? names = some .directory) : after.node? names = some .directory := by
  rcases h with same | ⟨absent, -, -⟩
  · rw [same, there]
  · rw [there] at absent
    cases absent

theorem Grows.trans {disk middle after : Disk} {made : List String → Prop}
    (first : disk.Grows middle made) (second : middle.Grows after made) :
    disk.Grows after made :=
  fun names => (first names).trans (second names)

theorem Grows.mono {disk after : Disk} {made more : List String → Prop}
    (h : disk.Grows after made) (sub : ∀ names, made names → more names) :
    disk.Grows after more :=
  fun names => (h names).mono (sub names)

theorem Grows.keepsDirectories {disk after : Disk} {made : List String → Prop}
    (h : disk.Grows after made) : disk.KeepsDirectories after :=
  fun names => (h names).keepsDirectory

/-! ## Changes at one place -/

theorem top_ofTop {entry : Entry} (h : entry.node? [] = some .directory) :
    (ofTop entry).top = entry := by
  cases entry with
  | file content => cases h
  | directory children => rfl

theorem alter_eq_ok {disk after : Disk} {path : Path}
    {change : Option Entry → Except DiskFault Entry} (h : disk.alter path change = .ok after) :
    ∃ names changed, disk.Reaches path names ∧ disk.top.alter change names = .ok changed ∧
      after = ofTop changed := by
  obtain ⟨changed, accessed, same⟩ := map_eq_ok h
  obtain ⟨names, reaches, runs⟩ := access_eq_ok.mp accessed
  exact ⟨names, changed, reaches, runs, same.symm⟩

/-- A written file stands at its place, in place of a file or of nothing. -/
theorem writeFile_eq_ok {disk after : Disk} {path : Path} {content : Bytes}
    (h : disk.writeFile path content = .ok after) :
    ∃ names, disk.Reaches path names ∧ Short names ∧ disk.node? names ≠ some .directory ∧
      ∀ other, after.node? other =
        if other = names then some (.file content) else disk.node? other := by
  obtain ⟨names, changed, reaches, alters, rfl⟩ := alter_eq_ok h
  obtain ⟨leads, before, nodes⟩ := Entry.alter_write alters
  refine ⟨names, reaches, (Entry.find_eq_ok.mp leads).2, before, fun other => ?_⟩
  have top : changed.node? [] = some .directory := by
    have notTop : [] ≠ names := fun e => before (e ▸ disk.node?_nil)
    rw [nodes, if_neg notTop]
    rfl
  rw [node?, top_ofTop top, nodes]
  rfl

theorem makeDirectory_eq_ok {disk after : Disk} {path : Path}
    (h : disk.makeDirectory path = .ok after) :
    disk.node? path.names = none ∧
      ∀ other, after.node? other =
        if other = path.names then some .directory else disk.node? other := by
  obtain ⟨names, changed, reaches, alters, rfl⟩ := alter_eq_ok h
  obtain ⟨before, nodes⟩ := Entry.alter_make alters
  rw [← reaches.names_eq]
  refine ⟨before, fun other => ?_⟩
  have top : changed.node? [] = some .directory := by
    rw [nodes]
    split <;> rfl
  rw [node?, top_ofTop top, nodes]
  rfl

/-! ## Directories above a path -/

theorem makeDirectory_grows {disk after : Disk} {path : Path} {made : List String → Prop}
    (h : disk.makeDirectory path = .ok after) (place : made path.names) :
    disk.Grows after made := by
  obtain ⟨absent, nodes⟩ := makeDirectory_eq_ok h
  intro names
  by_cases same : names = path.names
  · subst same
    exact .inr ⟨absent, by rw [nodes, if_pos rfl], place⟩
  · exact .inl (by rw [nodes, if_neg same])

/-- The place of a directory above the parts, or of the directory of all parts. -/
def Along (parts names : List String) : Prop :=
  ∃ k, 0 < k ∧ k ≤ parts.length ∧ names = goDown [] (parts.take k)

theorem Along.all {parts : List String} (h : parts ≠ []) : Along parts (goDown [] parts) :=
  ⟨parts.length, List.length_pos_iff.mpr h, Nat.le_refl _, by rw [List.take_length]⟩

theorem Along.append {parts names : List String} (h : Along parts names) (part : String) :
    Along (parts ++ [part]) names := by
  obtain ⟨k, positive, le, rfl⟩ := h
  refine ⟨k, positive, ?_, ?_⟩
  · rw [List.length_append]
    exact Nat.le_add_right_of_le le
  · rw [List.take_append_of_le_length le]

/-- Whether or not it succeeds, making a directory only makes directories along its path. -/
theorem ensure_grows (base : Option String) (above : List String) (disk : Disk) :
    disk.Grows (ensure base above disk).1 (Along above.reverse) := by
  -- on the directories above, as the recursion goes up; every way out of it has made some of them
  induction above generalizing disk with
  | nil => exact .refl disk _
  | cons part above ih =>
    have place : Along (part :: above).reverse (Path.names ⟨base, (part :: above).reverse⟩) :=
      Along.all (by simp)
    have up : ∀ names, Along above.reverse names → Along (part :: above).reverse names := by
      intro names along
      rw [List.reverse_cons]
      exact along.append part
    rw [ensure]
    split
    · next makes => exact makeDirectory_grows makes place
    · split
      · next stopped =>
        have grows := ih disk
        rw [stopped] at grows
        exact grows.mono up
      · next made ensured =>
        have grows := ih disk
        rw [ensured] at grows
        have grows := grows.mono up
        split
        · next makes => exact grows.trans (makeDirectory_grows makes place)
        · exact grows
    · exact .refl disk _

end Disk

/-- The place of a directory above a path, also of one that a double dot leaves. -/
def Path.IsAncestor (path : Path) (names : List String) : Prop :=
  ∃ k < path.parts.length, names = goDown [] (path.parts.take k)

namespace Disk

theorem makeDirectories_grows (disk : Disk) (path : Path) :
    disk.Grows (disk.makeDirectories { path with parts := path.parts.dropLast }).1
      path.IsAncestor := by
  have grows := ensure_grows path.base path.parts.dropLast.reverse disk
  rw [List.reverse_reverse] at grows
  refine grows.mono fun names ⟨k, positive, le, place⟩ => ?_
  rw [List.length_dropLast] at le
  refine ⟨k, by omega, ?_⟩
  rw [place, List.dropLast_eq_take, List.take_take, Nat.min_eq_left le]

/-- Where a path leads to something, directories stand at the places above it. -/
theorem descend_ancestor {disk : Disk} {gone parts names : List String}
    (h : disk.descend gone parts = .ok names) (there : disk.node? names ≠ none) {k : Nat}
    (hk : k < parts.length) : disk.node? (goDown gone (parts.take k)) = some .directory := by
  induction parts generalizing gone k with
  | nil => cases hk
  | cons part parts ih =>
    rw [descend] at h
    split at h
    -- a double dot has looked the directory up, any other part goes on below it
    · next up =>
      split at h
      · next children found =>
        cases k with
        | zero => exact (find_directory.mp ⟨children, found⟩).1
        | succ k =>
          rw [List.take_succ_cons, goDown, if_pos up]
          exact ih h (Nat.lt_of_succ_lt_succ hk)
      · cases h
      · cases h
    · next down =>
      cases k with
      | zero =>
        have next : disk.node? (gone ++ [part]) ≠ none := by
          cases parts with
          | nil =>
            rw [descend] at h
            cases h
            exact there
          | cons other parts =>
            have directory := ih h (Nat.zero_lt_succ parts.length)
            rw [List.take_zero, goDown] at directory
            simp [directory]
        exact Entry.node?_parent next
      | succ k =>
        rw [List.take_succ_cons, goDown, if_neg down]
        exact ih h (Nat.lt_of_succ_lt_succ hk)

/-! ## Written files -/

/-- The file at a path has this content and the directories above it are there; nothing else has
changed but that those of them that were missing have been made. -/
structure Wrote (disk after : Disk) (path : Path) (content : Bytes) : Prop where
  content : after.readFile path = .ok content
  ancestors : ∀ names, path.IsAncestor names → after.node? names = some .directory
  others : ∀ names, names ≠ path.names → disk.GrowsAt after path.IsAncestor names
  notDirectory : disk.node? path.names ≠ some .directory

theorem Wrote.keepsDirectories {disk after : Disk} {path : Path} {content : Bytes}
    (h : disk.Wrote after path content) : disk.KeepsDirectories after := by
  intro names there
  have apart : names ≠ path.names := fun e => h.notDirectory (e ▸ there)
  exact (h.others names apart).keepsDirectory there

/-- What a file that is written after the directories above it have been made has changed. -/
theorem Grows.wrote {disk made after : Disk} {path : Path} {content : Bytes}
    (grows : disk.Grows made path.IsAncestor) (h : made.writeFile path content = .ok after) :
    disk.Wrote after path content := by
  obtain ⟨names, reaches, short, before, nodes⟩ := writeFile_eq_ok h
  have place := reaches.names_eq
  have keeps : made.KeepsDirectories after := by
    intro other there
    have apart : other ≠ names := fun e => before (e ▸ there)
    rw [nodes, if_neg apart, there]
  have file : after.node? names = some (.file content) := by rw [nodes, if_pos rfl]
  have reaches := keeps.reaches reaches
  refine ⟨readFile_eq_ok.mpr ⟨names, reaches, file, short⟩, ?_, fun other apart => ?_,
    fun there => ?_⟩
  · rintro _ ⟨k, hk, rfl⟩
    exact descend_ancestor reaches.descends (by simp [file]) hk
  · have same : after.node? other = made.node? other := by
      rw [nodes, if_neg (place ▸ apart)]
    exact (grows other).imp same.trans fun ⟨absent, there, above⟩ =>
      ⟨absent, same.trans there, above⟩
  · exact before (grows.keepsDirectories names (place ▸ there))

/-- The disk with a file, and with the directories above it, if they can be made. -/
def place? (disk : Disk) (path : Path) (content : Bytes) : Option Disk :=
  match disk.makeDirectories { path with parts := path.parts.dropLast } with
  | (made, none) => (made.writeFile path content).toOption
  | _ => none

theorem place?_eq_some {disk after : Disk} {path : Path} {content : Bytes}
    (h : disk.place? path content = some after) : ∃ made,
      disk.makeDirectories { path with parts := path.parts.dropLast } = (made, none) ∧
        made.writeFile path content = .ok after := by
  unfold place? at h
  split at h
  · next made makes =>
    refine ⟨made, makes, ?_⟩
    cases writes : made.writeFile path content <;> simp_all [Except.toOption]
  · cases h

end Disk
end DesignSystem
