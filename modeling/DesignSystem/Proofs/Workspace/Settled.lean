import DesignSystem.Proofs.Disk.Overwrite
import DesignSystem.Proofs.Model.SettledContract
import DesignSystem.Proofs.Workspace.Consistency
import DesignSystem.Proofs.Workspace.Rejected

/-! # What is read can be written, and stays so

A model that was read from a document with finite numbers is written as a document that is accepted.
It is not the document that was read: other names of fields are gone, and so is what is null. But
from then on nothing changes.

* `Schema.Settles`: what a model is written as builds a model that is written alike.
* `Address.settles`: every model does that has been built from a document with finite numbers.
* `Slot.store_of_readFile`, `Slot.store_lone`: a document is stored where a file is, or the file is
  emptied, as its text has no bytes.
* `Workspace.write_of_read`: a model that was read is written, read again and written again, and
  both writes leave the same bytes.
* `Workspace.write_of_read_lone`: a model that was read from an escaped surrogate is not written.
-/

namespace DesignSystem
set_option autoImplicit false

/-! ## Models -/

namespace Schema
variable {α : Type} {document : Json}

/-- What a model is written as can be put on disk, and builds a model that is written alike. -/
structure Settles (schema : Schema α) (model again : α) : Prop where
  storable : (schema.encode model).Storable
  builds : schema.build (schema.encode model) = .ok (.ok again)
  same : schema.encode again = schema.encode model

theorem build_of_accepts {schema : Schema α} {model : α} (accepts : schema.Accepts document)
    (decodes : schema.decode document = .ok model) : schema.build document = .ok (.ok model) := by
  obtain ⟨report, checks, valid⟩ := accepts
  rw [build, checks]
  simp [valid, decodes, bind, Except.bind, pure, Except.pure]

theorem Judges.accepts {schema : Schema α} {shape : Prop}
    (judges : Judges (schema.check document) shape) (fits : shape) : schema.Accepts document := by
  obtain ⟨report, checks, valid⟩ := judges
  exact ⟨report, checks, valid.mpr fits⟩

theorem core_settles {model : CoreTokens} (storable : document.Storable)
    (builds : core.build document = .ok (.ok model)) : core.Settles model model := by
  obtain ⟨accepts, decodes⟩ := build_eq_ok builds
  have settled : model.Settled := CoreTokens.settled_of_decode decodes storable
    ((Check.coreTokens_decides document).mp (accepts_guarded accepts))
  have judges : Judges (core.check model.document) (model.document.IsObject Shape.CoreTokens) :=
    (guarded_judges (Check.coreTokens_decides _) (Check.coreTokensOversized_iff _)).1.mpr
      (Shape.CoreTokens.not_stopsCore settled.shape)
  exact ⟨settled.document_storable,
    build_of_accepts (judges.accepts settled.shape) model.decode_document, rfl⟩

theorem semantic_settles (model : SemanticTokens) : semantic.Settles model model := by
  have judges : Judges (semantic.check model.document)
      (model.document.IsObject Shape.SemanticTokens) :=
    total_judges (Check.semanticTokens_decides _)
  exact ⟨model.document_storable,
    build_of_accepts (judges.accepts model.document_shape) model.decode_document, rfl⟩

theorem system_settles {model : SystemManifest} (storable : document.Storable)
    (builds : system.build document = .ok (.ok model)) : system.Settles model model.trimmed := by
  obtain ⟨accepts, decodes⟩ := build_eq_ok builds
  have extended := SystemManifest.extended_of_decode decodes storable
    ((Check.systemManifest_decides document).mp (accepts_total accepts))
  have judges : Judges (system.check model.document)
      (model.document.IsObject Shape.SystemManifest) :=
    total_judges (Check.systemManifest_decides _)
  exact ⟨SystemManifest.document_storable extended,
    build_of_accepts (judges.accepts (SystemManifest.document_shape extended))
      (SystemManifest.decode_document extended), model.document_trimmed⟩

theorem settled_of_build {model : ComponentContract} (storable : document.Storable)
    (builds : contract.build document = .ok (.ok model)) : model.Settled := by
  have consistent := consistent_of_build builds
  obtain ⟨⟨report, checks, valid⟩, decodes⟩ := build_eq_ok builds
  obtain ⟨passes, -⟩ := checkContract_valid checks valid decodes
  obtain ⟨fields, rfl, shape⟩ := (Check.contract_decides document).mp passes
  have carries : model.Carries Json.Storable := by
    have ends := ComponentContract.decode_ends Json.storable_cumulative.toHereditary storable
    rwa [show ComponentContract.decode (.object fields) = .ok model from decodes] at ends
  exact {
    name := ComponentContract.componentName_of_decode decodes shape.toContractStructure
    targets := consistent.targets
    props := ComponentContract.props_of_decode decodes carries shape.toContractStructure
    enums := consistent.enums
    variants := fun variants listed variant mem => VariantDefinition.settled_of_carries
      (carries.variants variant (by rwa [listed]))
    states := fun states listed state mem => Layout.extended_of_leaves
      (carries.states state (by rwa [listed])) rfl (by decide)
    code := ComponentContract.code_of_decode decodes storable shape.toContractStructure
    examples := fun examples listed e mem => ComponentExample.settled_of_carries
      (carries.examples e (by rwa [listed]))
    fits := fun e mem => (consistent.examples e mem).2 }

theorem contract_settles {model : ComponentContract} (storable : document.Storable)
    (builds : contract.build document = .ok (.ok model)) :
    contract.Settles model model.trimmed := by
  have settled := settled_of_build storable builds
  have decodes := settled.decode_document
  have accepts : contract.Accepts model.document := by
    obtain ⟨report, checks, valid⟩ := Usage.checkExamples_of_fits settled.examples_fit
    refine ⟨report, ?_, valid⟩
    change checkContract model.document = _
    rw [checkContract, (Check.contract_decides _).mpr settled.shape]
    simp only [decodes, checks]
  exact ⟨settled.document_storable, build_of_accepts accepts decodes, model.document_trimmed⟩

end Schema

/-- Whatever a document with finite numbers builds settles, unless it is the rules of a
platform. -/
theorem Address.settles {address : Address} (kind : ∀ word, address ≠ .platform word)
    {document : Json} {model : address.Model} (storable : document.Storable)
    (builds : address.schema.build document = .ok (.ok model)) :
    ∃ again, address.schema.Settles model again := by
  cases address with
  | system => exact ⟨_, Schema.system_settles storable builds⟩
  | core => exact ⟨_, Schema.core_settles storable builds⟩
  | semantic theme => exact ⟨_, Schema.semantic_settles model⟩
  | platform word => exact absurd rfl (kind word)
  | contract name => exact ⟨_, Schema.contract_settles storable builds⟩

/-! ## Stores -/

namespace Slot

section
variable {α : Type} {slot : Slot α} {directory : Path} {name : String} {disk : Disk} {bytes : Bytes}
  (place : slot.path = directory.child name) (plain : name ≠ "..")
  (reads : disk.readFile slot.path = .ok bytes)
include place plain reads

theorem store_cases_of_readFile (document : Json) : ∃ after,
    disk.writeFile slot.path (content document) = .ok after ∧
    slot.store disk document = match unencodable? document with
      | some fault => (.aborted (.unencodable fault), after)
      | none => (.ok slot.path, after) := by
  obtain ⟨after, writes⟩ := Disk.writeFile_of_readFile reads (content document)
  have parent : ({ slot.path with parts := slot.path.parts.dropLast } : Path) = directory := by
    rw [place, Path.child, List.dropLast_concat]
  rw [place] at reads
  have made := Disk.makeDirectories_of_readFile plain reads
  refine ⟨after, writes, ?_⟩
  cases encodes : unencodable? document <;> simp only [store, parent, made, writes, encodes]

/-- A document is stored where a file is. -/
theorem store_of_readFile {document : Json} (unicode : document.Unicode) :
    ∃ after, slot.store disk document = (.ok slot.path, after) := by
  obtain ⟨after, -, stores⟩ := store_cases_of_readFile place plain reads document
  rw [unencodable?_eq_none.mpr unicode] at stores
  exact ⟨after, stores⟩

/-- A document whose text has no bytes leaves the file empty. -/
theorem store_lone {document : Json} (lone : ¬ document.Unicode) : ∃ fault after,
    slot.store disk document = (.aborted (.unencodable fault), after) ∧
    after.readFile slot.path = .ok [] := by
  obtain ⟨after, writes, stores⟩ := store_cases_of_readFile place plain reads document
  cases found : unencodable? document with
  | none => exact absurd (unencodable?_eq_none.mp found) lone
  | some fault =>
    rw [found] at stores
    rw [content, found] at writes
    exact ⟨fault, after, stores, ((Disk.Grows.refl disk _).wrote writes).content⟩

/-- A model that settles is written where a file is, and what is read then is what it settles to. -/
theorem write_of_settles {model again : α} (settles : slot.schema.Settles model again)
    (unicode : (slot.schema.encode model).Unicode) :
    ∃ after, slot.write disk (slot.schema.encode model) = (.ok slot.path, after) ∧
      after.readFile slot.path = .ok (Slot.bytes (slot.schema.encode model)) ∧
      slot.read after = .ok again := by
  obtain ⟨after, stores⟩ := store_of_readFile place plain reads unicode
  have builds := build_eq_ok.mpr settles.builds
  have writes : slot.write disk (slot.schema.encode model) = (.ok slot.path, after) := by
    rw [write]
    simp only [builds, settles.storable.2, stores]
  have wrote := (write_eq_ok writes).2.1
  exact ⟨after, writes, wrote.content,
    read_of_wrote settles.storable.1 unicode settles.storable.2 builds wrote⟩

/-- A model that settles but whose document has no bytes is not written, and the file is emptied. -/
theorem write_lone {model again : α} (settles : slot.schema.Settles model again)
    (lone : ¬ (slot.schema.encode model).Unicode) : ∃ fault after,
    slot.write disk (slot.schema.encode model) = (.aborted (.unencodable fault), after) ∧
      after.readFile slot.path = .ok [] := by
  obtain ⟨fault, after, stores, emptied⟩ := store_lone place plain reads lone
  have builds := build_eq_ok.mpr settles.builds
  refine ⟨fault, after, ?_, emptied⟩
  rw [write]
  simp only [builds, settles.storable.2, stores]

end
end Slot

namespace Workspace

/-- A slot is in a directory, under a name that is no double dot. -/
theorem AtLocation.place {α : Type} {workspace : Workspace} {slot : Slot α} {location : Location}
    (located : workspace.AtLocation slot location) :
    ∃ (directory : Path) (name : String), slot.path = directory.child name ∧ name ≠ ".." := by
  have named : location.tail ≠ [] := by cases location <;> exact List.cons_ne_nil _ _
  refine ⟨workspace.root.below location.tail.dropLast, location.tail.getLast named, ?_, ?_⟩
  · rw [located.path, Path.child, Path.below, Path.below, List.append_assoc,
      List.dropLast_append_getLast]
  · exact fun dots => location.tail_plain (dots ▸ List.getLast_mem named)

/-- A model that was read from a document with finite numbers is written if its document is Unicode,
and what is read then is written alike: writing it leaves the file as the first write has left it. A
model whose document is not is not written, and the file it was read from is emptied. -/
theorem write_of_read {workspace : Workspace} {disk : Disk} {address : Address}
    {slot : Slot address.Model} {document : Json} {model : address.Model}
    (kind : ∀ word, address ≠ .platform word) (found : workspace.slot address = .ok slot)
    (loads : slot.load disk = .ok document) (finite : document.Finite)
    (reads : workspace.read disk address = .ok model) :
    ∃ distinct : (address.schema.encode model).Distinct,
      ((address.schema.encode model).Unicode → ∃ after again distinctAgain final,
        workspace.write disk address (.model model distinct) = (.ok slot.path, after) ∧
        workspace.read after address = .ok again ∧
        address.schema.encode again = address.schema.encode model ∧
        workspace.write after address (.model again distinctAgain) = (.ok slot.path, final) ∧
        after.readFile slot.path = .ok (Slot.bytes (address.schema.encode model)) ∧
        final.readFile slot.path = .ok (Slot.bytes (address.schema.encode model))) ∧
      (¬ (address.schema.encode model).Unicode → ∃ fault after,
        workspace.write disk address (.model model distinct) =
          (.aborted (.unencodable fault), after) ∧ after.readFile slot.path = .ok []) := by
  obtain ⟨bytes, opens, parses⟩ := Slot.load_eq_ok.mp loads
  have storable : document.Storable := Json.storable_iff.mpr
    ⟨⟨Slot.parse_built Json.distinct_built parses, Slot.parse_built Json.writable_built parses⟩,
      finite⟩
  have builds : slot.schema.build document = .ok (.ok model) := by
    rw [read, found] at reads
    obtain ⟨other, loadsOther, builds⟩ := Outcome.bind_eq_ok reads
    cases loads.symm.trans loadsOther
    exact Slot.build_eq_ok.mp builds
  rw [slot_schema found] at builds
  obtain ⟨again, settles⟩ := Address.settles kind storable builds
  obtain ⟨location, located, -⟩ := exists_atLocation found
  obtain ⟨directory, name, place, plain⟩ := located.place
  refine ⟨settles.storable.1, fun unicode => ?_, fun lone => ?_⟩
  · have writes := @Slot.write_of_settles _ slot directory name
    simp only [slot_schema found] at writes
    obtain ⟨after, first, content, readsAgain⟩ := writes place plain opens settles unicode
    have settlesAgain : address.schema.Settles again again :=
      ⟨settles.same ▸ settles.storable, settles.same ▸ settles.builds, rfl⟩
    obtain ⟨final, second, contentAgain, -⟩ :=
      writes place plain content settlesAgain (settles.same ▸ unicode)
    refine ⟨after, again, settlesAgain.storable.1, final, ?_, ?_, settles.same, ?_, content,
      settles.same ▸ contentAgain⟩
    · rw [write_eq found]
      exact first
    · rw [read, found]
      exact readsAgain
    · rw [write_eq found]
      exact second
  · have writes := @Slot.write_lone _ slot directory name
    simp only [slot_schema found] at writes
    obtain ⟨fault, after, stops, emptied⟩ := writes place plain opens settles lone
    refine ⟨fault, after, ?_, emptied⟩
    rw [write_eq found]
    exact stops

/-- A manifest out of order, with fields under their other names and fields that are null. -/
def aliasedManifest : Json :=
  .object [("note", .null), ("default_theme", .string "dark"), ("version", .string "1.0"),
    ("schema_uri", .null), ("name", .string "plain"), ("owner", .object [("team", .null)])]

def aliasedDisk : Disk := ⟨[("library", .directory [
  ("system.json", .file (Slot.bytes aliasedManifest))])]⟩

/-- Whether a manifest is read, and is written as a Unicode text. -/
def readsUnicode (workspace : Workspace) (disk : Disk) : Option Bool :=
  match workspace.read disk .system with
  | .ok model => some (decide (Schema.encode .system model).Unicode)
  | _ => none

theorem readsUnicode_eq_some {workspace : Workspace} {disk : Disk} {unicode : Bool}
    (h : workspace.readsUnicode disk = some unicode) : ∃ model : SystemManifest,
      workspace.read disk .system = .ok model ∧ (model.document.Unicode ↔ unicode = true) := by
  unfold readsUnicode at h
  split at h
  · next model reads =>
    cases h
    exact ⟨model, reads, decide_eq_true_iff.symm⟩
  · cases h

theorem write_of_read_aliased :
    let workspace : Workspace := ⟨.ofText "library"⟩
    ∃ (model again : SystemManifest) (distinct : model.document.Distinct)
      (distinctAgain : again.document.Distinct) (after final : Disk),
      workspace.read aliasedDisk .system = .ok model ∧
      workspace.write aliasedDisk .system (.model model distinct) =
        (.ok workspace.system.path, after) ∧
      workspace.read after .system = .ok again ∧ again.document = model.document ∧
      workspace.write after .system (.model again distinctAgain) =
        (.ok workspace.system.path, final) ∧
      after.readFile workspace.system.path = .ok (Slot.bytes model.document) ∧
      final.readFile workspace.system.path = .ok (Slot.bytes model.document) := by
  intro workspace
  have finite : aliasedManifest.Finite := by
    simp [aliasedManifest, Json.finite_object, Json.Finite.null, Json.Finite.string]
  have loads : workspace.system.load aliasedDisk = .ok aliasedManifest := by
    refine Slot.load_eq_ok.mpr ⟨Slot.bytes aliasedManifest, by decide +kernel, ?_⟩
    exact @Slot.parse_bytes aliasedManifest (by decide) (by decide) (by decide +kernel)
  have succeeds : workspace.readsUnicode aliasedDisk = some true := by decide +kernel
  obtain ⟨model, reads, unicode⟩ := readsUnicode_eq_some succeeds
  obtain ⟨distinct, written, -⟩ :=
    write_of_read (fun _ => Address.noConfusion) rfl loads finite reads
  obtain ⟨after, again, distinctAgain, final, writes⟩ := written (unicode.mpr rfl)
  exact ⟨model, again, distinct, distinctAgain, after, final, reads, writes⟩

/-- A disk with a manifest in ASCII, where a surrogate on its own is escaped. -/
def loneDisk : Disk := ⟨[("library", .directory [
  ("system.json", .file (Utf8.encode (loneManifest.render .asciiLine 0 ++ ['\n'])))])]⟩

/-- A manifest that was read from an escaped surrogate is not written back, and its file is lost. -/
theorem write_of_read_lone :
    let workspace : Workspace := ⟨.ofText "library"⟩
    workspace.system.load loneDisk = .ok loneManifest ∧ loneManifest.Finite ∧
    ∃ (model : SystemManifest) (distinct : model.document.Distinct),
      workspace.read loneDisk .system = .ok model ∧
      (workspace.write loneDisk .system (.model model distinct)).1.isOk = false ∧
      (workspace.write loneDisk .system (.model model distinct)).2.readFile
        workspace.system.path = .ok [] := by
  intro workspace
  have distinct : loneManifest.Distinct := by decide
  have writable : loneManifest.unwritable? true = none := by decide +kernel
  have finite : loneManifest.Finite := by
    simp [loneManifest, Json.finite_object, Json.Finite.string]
  have opens : loneDisk.readFile workspace.system.path =
      .ok (Utf8.encode (loneManifest.render .asciiLine 0 ++ ['\n'])) := by decide +kernel
  have loads : workspace.system.load loneDisk = .ok loneManifest :=
    Slot.load_eq_ok.mpr ⟨_, opens, Slot.parse_encode .asciiLine distinct (.inl rfl) writable⟩
  have succeeds : workspace.readsUnicode loneDisk = some false := by decide +kernel
  obtain ⟨model, reads, unicode⟩ := readsUnicode_eq_some succeeds
  have builds : workspace.system.build loneManifest = .ok model := by
    obtain ⟨other, loadsOther, builds⟩ := Outcome.bind_eq_ok
      (show workspace.system.read loneDisk = .ok model from reads)
    cases loads.symm.trans loadsOther
    exact builds
  have settles := Schema.system_settles ⟨distinct, writable⟩ (Slot.build_eq_ok.mp builds)
  obtain ⟨directory, name, place, plain⟩ := workspace.system_atLocation.place
  obtain ⟨fault, after, stops, emptied⟩ :=
    Slot.write_lone place plain opens settles (unicode.not.mpr Bool.false_ne_true)
  refine ⟨loads, finite, model, settles.storable.1, reads, ?_, ?_⟩
  · rw [write_eq rfl]
    exact congrArg (fun result => result.1.isOk) stops
  · rw [write_eq rfl]
    exact (congrArg (fun result => result.2.readFile workspace.system.path) stops).trans emptied

end Workspace
end DesignSystem
