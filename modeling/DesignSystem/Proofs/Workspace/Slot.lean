import DesignSystem.Proofs.Disk.Effect
import DesignSystem.Proofs.Json.Encodable
import DesignSystem.Proofs.Json.LineEnds
import DesignSystem.Proofs.Json.RoundTrip
import DesignSystem.Proofs.Text.Encoding
import DesignSystem.Workspace.Slot

/-! # Reading and writing slots

* `Slot.parse_bytes`: the bytes of a document are parsed as the document.
* `Slot.read_eq_ok`: a slot is read if its bytes are those of a document that builds a model.
* `Slot.Stores`, `Slot.Writes`: how a write ends, and what it has done to the disk by then.
* `Slot.write_eq_ok`, `Slot.write_refused`, `Slot.write_stopped`: the same, by how it ends.
* `Slot.write_of_place`: a document that is in order is written where there is room for it.
* `Slot.write_eq_failed`: the code with which a write fails.
-/

namespace DesignSystem.Slot
set_option autoImplicit false

variable {α : Type}

/-! ## Bytes of documents -/

/-- The texts of Unicode documents have bytes, and no others have. -/
theorem unencodable?_eq_none {document : Json} :
    unencodable? document = none ↔ document.Unicode := by
  rw [unencodable?, Utf8.unencodable?_eq_none, List.forall_mem_append, Json.isChar_points rfl]
  simp

/-- The bytes of a document, in a style that spells its texts, are parsed as the document. -/
theorem parse_encode (style : Json.Style) {document : Json} (distinct : document.Distinct)
    (spelled : document.Spelled style) (writable : document.unwritable? true = none) :
    parse (Utf8.encode (document.render style 0 ++ ['\n'])) = .ok document.joined := by
  have noReturn : '\r' ∉ document.render style 0 ++ ['\n'] := by
    simp [Json.return_not_mem_render style 0 writable]
  have blank : ∀ c ∈ ['\n'], Json.isBlank c = true := by simp [Json.isBlank]
  have read := Json.read_render false style distinct spelled writable blank
  rw [parse, Utf8.decode_encode]
  simp only [universalNewlines_of_not_mem noReturn, read]

/-- The bytes of a document on disk are parsed as the document. -/
theorem parse_bytes {document : Json} (distinct : document.Distinct) (unicode : document.Unicode)
    (writable : document.unwritable? true = none) : parse (bytes document) = .ok document := by
  rw [bytes, parse_encode style distinct (.inr unicode) writable, unicode.joined_eq_self]

/-! ## Reading -/

theorem build_eq_ok {slot : Slot α} {document : Json} {model : α} :
    slot.build document = .ok model ↔ slot.schema.build document = .ok (.ok model) := by
  rw [build]
  cases slot.schema.build document with
  | error fault => simp
  | ok built => cases built <;> simp

theorem load_eq_ok {slot : Slot α} {disk : Disk} {document : Json} :
    slot.load disk = .ok document ↔
      ∃ bytes, disk.readFile slot.path = .ok bytes ∧ parse bytes = .ok document := by
  rw [load]
  cases disk.readFile slot.path with
  | error error => cases error <;> simp
  | ok bytes => cases parsed : parse bytes <;> simp [parsed]

/-- The models that are read from a slot. -/
theorem read_eq_ok {slot : Slot α} {disk : Disk} {model : α} :
    slot.read disk = .ok model ↔ ∃ bytes document, disk.readFile slot.path = .ok bytes ∧
      parse bytes = .ok document ∧ slot.schema.build document = .ok (.ok model) := by
  constructor
  · intro h
    obtain ⟨document, loads, builds⟩ := Outcome.bind_eq_ok h
    obtain ⟨bytes, found, parsed⟩ := load_eq_ok.mp loads
    exact ⟨bytes, document, found, parsed, build_eq_ok.mp builds⟩
  · rintro ⟨bytes, document, found, parsed, builds⟩
    have loads : slot.load disk = .ok document := load_eq_ok.mpr ⟨bytes, found, parsed⟩
    rw [read, loads]
    exact build_eq_ok.mpr builds

/-! ## Writing -/

/-- How putting a document on disk ends and what it has done by then. -/
inductive Stores (slot : Slot α) (disk : Disk) (document : Json) : Outcome Path × Disk → Prop
  /-- The document is in its file. -/
  | written {after : Disk} (unicode : document.Unicode)
      (wrote : disk.Wrote after slot.path (bytes document)) :
      Stores slot disk document (.ok slot.path, after)
  /-- The text of the document has no bytes, and its file is empty. -/
  | emptied {after : Disk} {fault : Utf8.Unencodable} (lone : unencodable? document = some fault)
      (wrote : disk.Wrote after slot.path []) :
      Stores slot disk document (.aborted (.unencodable fault), after)
  /-- The disk was in the way. -/
  | stopped {outcome : Outcome Path} {after : Disk} (stops : outcome.isOk = false)
      (grows : disk.Grows after slot.path.IsAncestor) : Stores slot disk document (outcome, after)

theorem store_cases (slot : Slot α) (disk : Disk) (document : Json) :
    slot.Stores disk document (slot.store disk document) := by
  have grows := disk.makeDirectories_grows slot.path
  unfold store
  dsimp only
  split
  · next made stops =>
    rw [stops] at grows
    exact .stopped rfl grows
  · next made error stops =>
    rw [stops] at grows
    exact .stopped rfl grows
  · next made makes =>
    rw [makes] at grows
    split
    · next written writes =>
      have wrote := grows.wrote writes
      unfold content at wrote
      split
      · next fault lone =>
        rw [lone] at wrote
        exact .emptied lone wrote
      · next encodes =>
        rw [encodes] at wrote
        exact .written (unencodable?_eq_none.mp encodes) wrote
    · exact .stopped rfl grows
    · exact .stopped rfl grows

/-- A document that is turned down before anything touches the disk. -/
def Refuses (slot : Slot α) (document : Json) : Prop :=
  (∀ model, slot.build document ≠ .ok model) ∨ document.unwritable? true ≠ none

/-- How a write ends and what it has done by then: the document is refused, or put on disk. -/
inductive Writes (slot : Slot α) (disk : Disk) (document : Json) : Outcome Path × Disk → Prop
  | refused {outcome : Outcome Path} (refuses : slot.Refuses document)
      (stops : outcome.isOk = false) : Writes slot disk document (outcome, disk)
  | accepted {model : α} {result : Outcome Path × Disk} (builds : slot.build document = .ok model)
      (writable : document.unwritable? true = none) (stores : slot.Stores disk document result) :
      Writes slot disk document result

theorem write_cases (slot : Slot α) (disk : Disk) (document : Json) :
    slot.Writes disk document (slot.write disk document) := by
  unfold write
  split
  · next builds => exact .refused (.inl (by simp [builds])) rfl
  · next builds => exact .refused (.inl (by simp [builds])) rfl
  · next model builds =>
    split
    · next serializes => exact .refused (.inr (by simp [serializes])) rfl
    · next serializes => exact .accepted builds serializes (slot.store_cases disk document)

/-- A write that succeeds has put the document on disk, which was not refused. -/
theorem write_eq_ok {slot : Slot α} {disk after : Disk} {document : Json} {path : Path}
    (h : slot.write disk document = (.ok path, after)) :
    path = slot.path ∧ disk.Wrote after slot.path (bytes document) ∧ document.Unicode ∧
      document.unwritable? true = none ∧ ∃ model, slot.build document = .ok model := by
  have ends := h ▸ slot.write_cases disk document
  cases ends with
  | refused _ stops => cases stops
  | @accepted model _ builds writable stores =>
    cases stores with
    | written unicode wrote => exact ⟨rfl, wrote, unicode, writable, model, builds⟩
    | stopped stops => cases stops

/-- A refused document leaves the disk as it was. -/
theorem write_refused {slot : Slot α} (disk : Disk) {document : Json}
    (h : slot.Refuses document) :
    (slot.write disk document).1.isOk = false ∧ (slot.write disk document).2 = disk := by
  have ends := slot.write_cases disk document
  generalize slot.write disk document = result at ends ⊢
  cases ends with
  | refused _ stops => exact ⟨stops, rfl⟩
  | @accepted model _ builds writable _ =>
    rcases h with h | h
    · exact absurd builds (h model)
    · exact absurd writable h

/-- A write that does not succeed has made directories above its path at most, or has emptied the
file there, as the text of the document has no bytes. -/
theorem write_stopped {slot : Slot α} {disk : Disk} {document : Json}
    (h : (slot.write disk document).1.isOk = false) :
    disk.Grows (slot.write disk document).2 slot.path.IsAncestor ∨
      ¬ document.Unicode ∧ ∃ fault, (slot.write disk document).1 = .aborted (.unencodable fault) ∧
        disk.Wrote (slot.write disk document).2 slot.path [] := by
  have ends := slot.write_cases disk document
  generalize slot.write disk document = result at ends h ⊢
  cases ends with
  | refused => exact .inl (.refl disk _)
  | accepted _ _ stores =>
    cases stores with
    | written => cases h
    | emptied lone wrote =>
      exact .inr ⟨fun unicode => by simp [unencodable?_eq_none.mpr unicode] at lone, _, rfl, wrote⟩
    | stopped _ grows => exact .inl grows

/-- A document that is in order is written wherever its bytes can be placed. -/
theorem write_of_place {slot : Slot α} {disk after : Disk} {document : Json} {model : α}
    (builds : slot.build document = .ok model) (writable : document.unwritable? true = none)
    (unicode : document.Unicode) (places : disk.place? slot.path (bytes document) = some after) :
    slot.write disk document = (.ok slot.path, after) := by
  have encodes := unencodable?_eq_none.mpr unicode
  have same : content document = bytes document := by
    rw [content, encodes]
    rfl
  obtain ⟨made, makes, writes⟩ := Disk.place?_eq_some places
  simp only [write, builds, writable, store, makes, same, writes, encodes]

/-- A document whose bytes are in the file of a slot is read as its model. -/
theorem read_of_bytes {slot : Slot α} {disk : Disk} {document : Json} {model : α}
    (distinct : document.Distinct) (unicode : document.Unicode)
    (writable : document.unwritable? true = none) (builds : slot.build document = .ok model)
    (reads : disk.readFile slot.path = .ok (bytes document)) : slot.read disk = .ok model :=
  read_eq_ok.mpr ⟨bytes document, document, reads, parse_bytes distinct unicode writable,
    build_eq_ok.mp builds⟩

/-- What has been written into a slot is what is read from it. -/
theorem read_of_wrote {slot : Slot α} {disk after : Disk} {document : Json} {model : α}
    (distinct : document.Distinct) (unicode : document.Unicode)
    (writable : document.unwritable? true = none) (builds : slot.build document = .ok model)
    (wrote : disk.Wrote after slot.path (bytes document)) : slot.read after = .ok model :=
  read_of_bytes distinct unicode writable builds wrote.content

/-- A write fails with the code for documents that cannot be used. -/
theorem write_eq_failed {slot : Slot α} {disk after : Disk} {document : Json} {failure : Failure}
    (h : slot.write disk document = (.failed failure, after)) :
    failure.code = slot.schema.invalid := by
  unfold write at h
  split at h
  · next builds =>
    unfold build at builds
    split at builds <;> cases builds
    cases h
    rfl
  · cases h
  · split at h
    · cases h
      rfl
    · unfold store at h
      dsimp only at h
      split at h
      · cases h
      · cases h
        rfl
      · split at h
        · split at h <;> cases h
        · cases h
        · cases h
          rfl

end DesignSystem.Slot
