import DesignSystem.Disk.Basic
import DesignSystem.Json.Reader
import DesignSystem.Json.Writer
import DesignSystem.Schema

/-! # Documents on disk

A slot is the place of one document: its path, its name in messages and its kind. Reads check what
they load; writes check before anything touches the disk.

* `DocumentFault`: why a document cannot be read or written.
* `Slot.read`: the model of the document in a slot.
* `Slot.write`: the disk after a document is written into a slot.
-/

namespace DesignSystem
set_option autoImplicit false

/-! ## Faults -/

inductive DocumentFault where
  | absent
  | unreadable (error : DiskError)
  | undecodable (fault : Utf8.Fault)
  | unparsable (fault : Json.ReadFault)
  | rejected (report : Report)
  | unserializable (cause : Json.Unwritable)
  | unwritable (error : DiskError)

namespace DocumentFault

def message (label : String) : DocumentFault → Text
  | absent => s!"{label} not found"
  | unreadable error => s!"Failed to read {label}: {error.message}"
  | undecodable fault => s!"Failed to read {label}: {fault.message}"
  | unparsable fault => s!"Failed to parse {label}: {fault.message}"
  | rejected report => s!"{label} validation failed: " ++ report.summary
  | unserializable cause => s!"Failed to serialize {label}: {cause.message}"
  | unwritable error => s!"Failed to write {label}: {error.message}"

/-- The place of a syntax fault, or the issues found. -/
def details : DocumentFault → Fields
  | unparsable (.malformed _ line column) => [("line", .int line), ("column", .int column)]
  | rejected report => [("errors", report.issueDocuments)]
  | _ => []

end DocumentFault

/-! ## Slots -/

structure Slot (α : Type) where
  path : Path
  /-- The name of the document in messages. -/
  label : String
  schema : Schema α

namespace Slot
variable {α : Type}

def failure (slot : Slot α) (fault : DocumentFault) : Failure where
  code := match fault with
    | .absent => slot.schema.absent
    | _ => slot.schema.invalid
  message := fault.message slot.label
  path := some slot.path.text
  details := fault.details

/-- The document that bytes hold. -/
def parse (bytes : Bytes) : Except DocumentFault Json :=
  match Utf8.decode bytes with
  | .error fault => .error (.undecodable fault)
  | .ok text =>
    match Json.read false (universalNewlines text) with
    | .error fault => .error (.unparsable fault)
    | .ok document => .ok document

def build (slot : Slot α) (document : Json) : Outcome α :=
  match slot.schema.build document with
  | .error fault => .aborted (.number fault)
  | .ok (.error report) => .failed (slot.failure (.rejected report))
  | .ok (.ok model) => .ok model

/-- The document in a slot, as it is on disk. -/
def load (slot : Slot α) (disk : Disk) : Outcome Json :=
  match disk.readFile slot.path with
  | .error .nul => .aborted .nulInPath
  | .error (.disk error) =>
    .failed (slot.failure (if error.fault = .absent then .absent else .unreadable error))
  | .ok bytes =>
    match parse bytes with
    | .error fault => .failed (slot.failure fault)
    | .ok document => .ok document

def read (slot : Slot α) (disk : Disk) : Outcome α := do
  let document ← slot.load disk
  slot.build document

/-- How documents are laid out on disk. -/
def style : Json.Style := ⟨false, some 2⟩

def bytes (document : Json) : Bytes := Utf8.encode (document.render style 0 ++ ['\n'])

/-- Why the text of a document has no bytes. -/
def unencodable? (document : Json) : Option Utf8.Unencodable :=
  Utf8.unencodable? (document.points style 0 ++ [.char '\n'])

/-- What a write leaves in the file that it opens, and thereby empties: the bytes of the document,
or nothing if its text has no bytes. -/
def content (document : Json) : Bytes :=
  if (unencodable? document).isSome then [] else bytes document

/-- Puts a document, which is known to be in order, on disk. A text without bytes stops the write
once the file is open. -/
def store (slot : Slot α) (disk : Disk) (document : Json) : Outcome Path × Disk :=
  let directory : Path := { slot.path with parts := slot.path.parts.dropLast }
  match disk.makeDirectories directory with
  | (made, some .nul) => (.aborted .nulInPath, made)
  | (made, some (.disk error)) => (.failed (slot.failure (.unwritable error)), made)
  | (made, none) =>
    match made.writeFile slot.path (content document) with
    | .ok written =>
      match unencodable? document with
      | some fault => (.aborted (.unencodable fault), written)
      | none => (.ok slot.path, written)
    | .error .nul => (.aborted .nulInPath, made)
    | .error (.disk error) => (.failed (slot.failure (.unwritable error)), made)

def write (slot : Slot α) (disk : Disk) (document : Json) : Outcome Path × Disk :=
  match slot.build document with
  | .failed failure => (.failed failure, disk)
  | .aborted abort => (.aborted abort, disk)
  | .ok _ =>
    match document.unwritable? true with
    | some cause => (.failed (slot.failure (.unserializable cause)), disk)
    | none => slot.store disk document

def writeModel (slot : Slot α) (disk : Disk) (model : α) : Outcome Path × Disk :=
  slot.write disk (slot.schema.encode model)

end Slot
end DesignSystem
