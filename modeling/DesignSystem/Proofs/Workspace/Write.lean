import DesignSystem.Proofs.Workspace.Operation
import DesignSystem.Proofs.Workspace.Slot

/-! # Writing and reading documents of a workspace

* `Workspace.read_of_write`: what has been written is on disk as it was given, and is read as its
  model.
* `Workspace.write_effect`: what a write has done to the disk, however it ends.
-/

namespace DesignSystem
set_option autoImplicit false

theorem Schema.build_eq_ok {α : Type} {schema : Schema α} {document : Json} {model : α}
    (h : schema.build document = .ok (.ok model)) :
    (∃ report, schema.check document = .ok report ∧ report.valid = true) ∧
      schema.decode document = .ok model := by
  unfold Schema.build at h
  obtain ⟨report, checks, h⟩ := bind_eq_ok h
  split at h
  · next valid =>
    split at h
    · next decodes =>
      cases h
      exact ⟨⟨report, checks, valid⟩, decodes⟩
    · cases h
  · cases h

namespace Workspace

/-! ## Reading what was written -/

/-- If a raw document is written, the file holds the same document, with its fields in order and its
integers and floats as they were, and what is read is the model of the document. -/
theorem read_of_write {workspace : Workspace} {disk after : Disk} {address : Address}
    {document : Json} {distinct : document.Distinct} {path : Path}
    (h : workspace.write disk address (.raw document distinct) = (.ok path, after)) :
    ∃ bytes model, after.readFile path = .ok bytes ∧ Slot.parse bytes = .ok document ∧
      address.schema.decode document = .ok model ∧ workspace.read after address = .ok model := by
  cases found : workspace.slot address with
  | error abort =>
    simp only [write, found] at h
    cases h
  | ok slot =>
    rw [write_eq found] at h
    obtain ⟨rfl, wrote, unicode, writable, model, builds⟩ := Slot.write_eq_ok h
    refine ⟨Slot.bytes document, model, wrote.content,
      Slot.parse_bytes distinct unicode writable, ?_, ?_⟩
    · have decodes := (Schema.build_eq_ok (Slot.build_eq_ok.mp builds)).2
      rwa [slot_schema found] at decodes
    · rw [read, found]
      exact Slot.read_of_wrote distinct unicode writable builds wrote

/-- A manifest with a description beyond ASCII. -/
def describedManifest : Json :=
  .object [("name", .string "plain"), ("version", .string "1.0"),
    ("description", .string "two\nlines, \"quoted\" \u00e9"),
    ("revision", .int 3), ("weight", .number (.float (.ofInt 3)))]

theorem write_describedManifest : ∃ path after,
    Workspace.write ⟨.ofText "library"⟩ .empty .system (.raw describedManifest (by decide)) =
      (.ok path, after) :=
  Outcome.exists_of_fst_isOk (by decide +kernel)

theorem read_of_write_manifest : ∃ path after,
    Workspace.write ⟨.ofText "library"⟩ .empty .system (.raw describedManifest (by decide)) =
      (.ok path, after) ∧
    ∃ bytes model, after.readFile path = .ok bytes ∧ Slot.parse bytes = .ok describedManifest ∧
      SystemManifest.decode describedManifest = .ok model ∧
      Workspace.read ⟨.ofText "library"⟩ after .system = .ok model := by
  obtain ⟨path, after, writes⟩ := write_describedManifest
  exact ⟨path, after, writes, read_of_write writes⟩

/-! ## What writing changes -/

end Workspace

/-- A document that its kind or its serialization turns down: the check finds issues, no model is
made of it, or one of its numbers is not written. -/
def Schema.Rejects {α : Type} (schema : Schema α) (document : Json) : Prop :=
  (∃ report, schema.check document = .ok report ∧ report.valid = false) ∨
    (∃ issues, schema.decode document = .rejected issues) ∨ document.unwritable? true ≠ none

theorem Slot.refuses_of_rejects {α : Type} {slot : Slot α} {document : Json}
    (h : slot.schema.Rejects document) : slot.Refuses document := by
  rcases h with ⟨report, checks, invalid⟩ | ⟨issues, decodes⟩ | unwritable
  · refine .inl fun model builds => ?_
    obtain ⟨⟨other, checksOther, valid⟩, -⟩ := Schema.build_eq_ok (Slot.build_eq_ok.mp builds)
    rw [checks] at checksOther
    cases checksOther
    rw [valid] at invalid
    cases invalid
  · refine .inl fun model builds => ?_
    have decodesOther := (Schema.build_eq_ok (Slot.build_eq_ok.mp builds)).2
    rw [decodes] at decodesOther
    cases decodesOther
  · exact .inr unwritable

namespace Workspace

/-- The places at which a write at an address may make directories. -/
def MayMake (workspace : Workspace) (address : Address) (names : List String) : Prop :=
  ∃ slot, workspace.slot address = .ok slot ∧ slot.path.IsAncestor names

/-- A write that succeeds has put the indented text of the document, and one line feed, into the
file at the path it returns, and has made the directories above it. A rejected document leaves the
disk as it was. However else a write ends, no file has changed, unless the document is no Unicode
text: such a document may have stopped the write after its file has been emptied. -/
theorem write_effect (workspace : Workspace) (disk : Disk) (address : Address)
    (argument : Argument address) :
    (∀ path after, workspace.write disk address argument = (.ok path, after) →
      (∃ slot, workspace.slot address = .ok slot ∧ path = slot.path) ∧
      disk.Wrote after path
        (Utf8.encode (argument.document.render ⟨false, some 2⟩ 0 ++ ['\n']))) ∧
    (address.schema.Rejects argument.document →
      (workspace.write disk address argument).1.isOk = false ∧
        (workspace.write disk address argument).2 = disk) ∧
    ((workspace.write disk address argument).1.isOk = false →
      disk.Grows (workspace.write disk address argument).2 (workspace.MayMake address) ∨
      ¬ argument.document.Unicode ∧ ∃ slot fault, workspace.slot address = .ok slot ∧
        (workspace.write disk address argument).1 = .aborted (.unencodable fault) ∧
        disk.Wrote (workspace.write disk address argument).2 slot.path []) := by
  cases found : workspace.slot address with
  | error abort =>
    have stops : workspace.write disk address argument = (.aborted abort, disk) := by
      simp only [write, found]
    rw [stops]
    refine ⟨fun path after e => ?_, fun _ => ⟨rfl, rfl⟩, fun _ => .inl (.refl disk _)⟩
    cases e
  | ok slot =>
    rw [write_eq found]
    refine ⟨fun path after writes => ?_, fun rejects => ?_, fun stops => ?_⟩
    · obtain ⟨rfl, wrote, -⟩ := Slot.write_eq_ok writes
      exact ⟨⟨slot, rfl, rfl⟩, wrote⟩
    · rw [← slot_schema found] at rejects
      exact Slot.write_refused disk (Slot.refuses_of_rejects rejects)
    · rcases Slot.write_stopped stops with grows | ⟨lone, fault, aborts, wrote⟩
      · exact .inl (grows.mono fun names above => ⟨slot, found, above⟩)
      · exact .inr ⟨lone, slot, fault, rfl, aborts, wrote⟩

/-- A disk with a file where the workspace should be. -/
def blockedDisk : Disk := ⟨[("library", .file [])]⟩

/-- A manifest with a number that no document has. -/
def endlessManifest : Json :=
  .object [("name", .string "plain"), ("version", .string "1.0"),
    ("weight", .number (.float (.infinity false)))]

theorem write_effect_manifest :
    (∃ path after,
      Workspace.write ⟨.ofText "library"⟩ .empty .system (.raw describedManifest (by decide)) =
        (.ok path, after) ∧
      Disk.Wrote .empty after path
        (Utf8.encode (describedManifest.render ⟨false, some 2⟩ 0 ++ ['\n']))) ∧
    Schema.system.Rejects endlessManifest ∧
    (Workspace.write ⟨.ofText "library"⟩ .empty .system
      (.raw endlessManifest (by decide))).2 = .empty ∧
    (Workspace.write ⟨.ofText "library"⟩ blockedDisk .system
      (.raw describedManifest (by decide))).1.isOk = false ∧
    blockedDisk.Grows (Workspace.write ⟨.ofText "library"⟩ blockedDisk .system
      (.raw describedManifest (by decide))).2 (MayMake ⟨.ofText "library"⟩ .system) := by
  have rejects : Schema.system.Rejects endlessManifest := .inr (.inr (by simp [endlessManifest,
    Json.unwritable?, Json.unwritableField?, Json.unwritableValue?, Json.unwritableNumber?,
    Binary64.isFinite]))
  have stops : (Workspace.write ⟨.ofText "library"⟩ blockedDisk .system
      (.raw describedManifest (by decide))).1.isOk = false := by decide +kernel
  have refused := write_effect ⟨.ofText "library"⟩ .empty .system
    (.raw endlessManifest (by decide))
  have stopped := write_effect ⟨.ofText "library"⟩ blockedDisk .system
    (.raw describedManifest (by decide))
  have unicode : describedManifest.Unicode := by decide +kernel
  have grows := (stopped.2.2 stops).resolve_right fun lone => lone.1 unicode
  refine ⟨?_, rejects, (refused.2.1 rejects).2, stops, grows⟩
  obtain ⟨path, after, writes⟩ := write_describedManifest
  exact ⟨path, after, writes, ((write_effect _ _ _ _).1 path after writes).2⟩

/-- A disk with a manifest. -/
def manifestDisk : Disk := ⟨[("library", .directory [
  ("system.json", .file (Slot.bytes describedManifest))])]⟩

/-- A manifest with a text that is a surrogate on its own. -/
def loneManifest : Json :=
  .object [("name", .string "plain"), ("version", .string "1.0"),
    ("note", .string ⟨[.ofUnit 0xD800]⟩)]

/-- A document that is no Unicode text stops the write, and what its file held is lost. -/
theorem write_effect_lone :
    let workspace : Workspace := ⟨.ofText "library"⟩
    let result := workspace.write manifestDisk .system (.raw loneManifest (by decide))
    (∃ fault, result.1 = .aborted (.unencodable fault)) ∧
    manifestDisk.readFile workspace.system.path = .ok (Slot.bytes describedManifest) ∧
    result.2.readFile workspace.system.path = .ok [] := by
  intro workspace result
  have stops : (workspace.system.write manifestDisk loneManifest).1.isOk = false ∧
      result.2.node? ["library", "system.json"] = some (.file []) := by decide +kernel
  obtain ⟨stops, emptied⟩ := stops
  have held : manifestDisk.node? ["library", "system.json"] =
      some (.file (Slot.bytes describedManifest)) := rfl
  have reads : manifestDisk.readFile workspace.system.path =
      .ok (Slot.bytes describedManifest) := by decide +kernel
  rcases Slot.write_stopped stops with grows | ⟨-, fault, aborts, wrote⟩
  · rcases grows ["library", "system.json"] with same | ⟨absent, -⟩
    · have filled : Slot.bytes describedManifest ≠ [] := by decide +kernel
      replace same := emptied.symm.trans (same.trans held)
      simp only [Option.some.injEq, Node.file.injEq] at same
      exact absurd same.symm filled
    · cases absent.symm.trans held
  · exact ⟨⟨fault, aborts⟩, reads, wrote.content⟩

end Workspace
end DesignSystem
