import DesignSystem.Disk.Entry
import DesignSystem.Disk.Path
import DesignSystem.Outcome

/-! # The disk

The disk is what lies below the current directory.

* `Disk.locate`, `Disk.status`: the entry at a path, with or without a cause if there is none.
* `Disk.readFile`, `Disk.writeFile`: the content of a file.
* `Disk.makeDirectories`: a directory and those above it.
-/

namespace DesignSystem
set_option autoImplicit false

structure Disk where
  children : List (String × Entry)

/-- Why a path is not accessible. -/
inductive AccessError where
  /-- The path has a NUL character. -/
  | nul
  | disk (error : DiskError)
  deriving DecidableEq

/-- The condition on which an operation stops that does not report the error. -/
def AccessError.abort : AccessError → Abort
  | nul => .nulInPath
  | disk error => .disk error

namespace Disk

def empty : Disk := ⟨[]⟩

/-- The current directory as an entry. -/
def top (disk : Disk) : Entry := .directory disk.children

/-- The disk with an entry for its current directory. -/
def ofTop : Entry → Disk
  | .directory children => ⟨children⟩
  | .file _ => empty

/-- The most bytes that a path may have. -/
def maxPathBytes : Nat := 4095

/-- The names that parts go down, after those already gone down. A double dot leaves the directory
reached, which has to be there. -/
def descend (disk : Disk) (gone : List String) : List String → Except DiskFault (List String)
  | [] => .ok gone
  | part :: parts =>
    if part = ".." then
      match disk.top.find gone with
      | .ok (.directory _) => descend disk gone.dropLast parts
      | .ok (.file _) => .error .notDirectory
      | .error fault => .error fault
    else descend disk (gone ++ [part]) parts

/-- Runs an access to a path on the names that it goes down. -/
def access {α : Type} (disk : Disk) (path : Path) (run : List String → Except DiskFault α) :
    Except AccessError α :=
  if path.hasNul then .error .nul
  else if maxPathBytes < (Utf8.encode path.text.toList).length then
    .error (.disk ⟨.nameTooLong, path.text⟩)
  else match (disk.descend [] path.parts).bind run with
    | .ok value => .ok value
    | .error fault => .error (.disk ⟨fault, path.text⟩)

/-! ## Looking -/

def locate (disk : Disk) (path : Path) : Except AccessError Entry :=
  disk.access path fun names => disk.top.find names

/-- The entry at a path, if there is one. Names that are too long are an error all the same. -/
def status (disk : Disk) (path : Path) : Except DiskError (Option Entry) :=
  match disk.locate path with
  | .ok entry => .ok (some entry)
  | .error .nul => .ok none
  | .error (.disk error) =>
    match error.fault with
    | .absent | .notDirectory => .ok none
    | _ => .error error

def isDirectory (disk : Disk) (path : Path) : Except DiskError Bool :=
  (disk.status path).map (·.any Entry.isDirectory)

def isFile (disk : Disk) (path : Path) : Except DiskError Bool :=
  (disk.status path).map (·.any Entry.isFile)

def isThere (disk : Disk) (path : Path) : Except DiskError Bool :=
  (disk.status path).map Option.isSome

/-- Whether a path has more bytes than any access takes. -/
def isOverlong (path : Path) : Bool := maxPathBytes < (Utf8.encode path.text.toList).length

/-- The names of the files among the children of a directory that are asked for, by code point.
Each of them is looked at under its path, which may be too long for that. -/
def filesAmong (directory : Path) (asked : String → Bool) (children : List (String × Entry)) :
    Except DiskError (List String) :=
  let names := (Entry.directory children).childNames.filter asked
  match names.find? fun name => isOverlong (directory.child name) with
  | some name => .error ⟨.nameTooLong, (directory.child name).text⟩
  | none => .ok (names.filter fun name => (children.lookup name).any Entry.isFile)

/-- The names of the files in a directory that are asked for; none where no directory is. -/
def fileNames (disk : Disk) (path : Path) (asked : String → Bool) :
    Except DiskError (List String) := do
  match ← disk.status path with
  | some (.directory children) => filesAmong path asked children
  | _ => return []

/-- All that lies below the current directory by code point, directories with a slash. -/
def listing (disk : Disk) : List (String × Option Bytes) :=
  (Entry.walkChildren "" disk.children).mergeSort fun a b => a.1 ≤ b.1

/-! ## Reading and writing -/

def readFile (disk : Disk) (path : Path) : Except AccessError Bytes :=
  match disk.locate path with
  | .ok (.file content) => .ok content
  | .ok (.directory _) => .error (.disk ⟨.isDirectory, path.text⟩)
  | .error error => .error error

/-- The disk after a change of the entry at a path. -/
def alter (disk : Disk) (path : Path) (change : Option Entry → Except DiskFault Entry) :
    Except AccessError Disk :=
  (disk.access path fun names => disk.top.alter change names).map ofTop

def writeFile (disk : Disk) (path : Path) (content : Bytes) : Except AccessError Disk :=
  disk.alter path (Entry.writeChange content)

def makeDirectory (disk : Disk) (path : Path) : Except AccessError Disk :=
  disk.alter path Entry.makeChange

/-- What becomes of an error in making a directory: none if a directory is there after all. -/
def settle (disk : Disk) (path : Path) (error : AccessError) : Option AccessError :=
  match error with
  | .nul => some .nul
  | .disk error =>
    match disk.isDirectory path with
    | .ok true => none
    | .ok false => some (.disk error)
    | .error other => some (.disk other)

/-- Makes the directory with these parts, given from the last one up. Where a directory above it is
absent, that is made first. -/
def ensure (base : Option String) : List String → Disk → Disk × Option AccessError
  | [], disk => (disk, none)
  | part :: above, disk =>
    let path : Path := ⟨base, (part :: above).reverse⟩
    match disk.makeDirectory path with
    | .ok made => (made, none)
    | .error (.disk ⟨.absent, _⟩) =>
      match ensure base above disk with
      | (made, some error) => (made, some error)
      | (made, none) =>
        match made.makeDirectory path with
        | .ok made => (made, none)
        | .error error => (made, made.settle path error)
    | .error error => (disk, disk.settle path error)

/-- Makes a directory and those above it; on an error some of those above may have been made. -/
def makeDirectories (disk : Disk) (path : Path) : Disk × Option AccessError :=
  ensure path.base path.parts.reverse disk

def remove (disk : Disk) (path : Path) : Disk := ofTop (disk.top.erase path.names)

/-- The disk with a file, or with a directory where no content is given, and with the directories
above it. -/
def install (disk : Disk) (path : Path) (content : Option Bytes) : Disk :=
  match content with
  | none => (disk.makeDirectories path).1
  | some content =>
    let made := (disk.makeDirectories ⟨path.base, path.parts.dropLast⟩).1
    match made.writeFile path content with
    | .ok written => written
    | .error _ => made

end Disk
end DesignSystem
