import DesignSystem.Dict
import DesignSystem.Disk.Fault
import DesignSystem.Text.Utf8

/-! # Entries of a file system

A file system is a tree of directories with files at its leaves. Of several children of one name
the first counts.

This is less than file systems have. There are no links, no devices and no permissions: every file
is opened, and every directory is listed and changed, by anyone. Names are Unicode texts, so a name
whose bytes are not UTF-8 is not in the tree. Nothing but the operations of this library changes the
tree while they run.

* `Entry.find`: the entry that names lead to.
* `Entry.alter`: the tree after a change of the entry that names lead to.
* `Entry.erase`: the tree without the entry that names lead to.
* `Entry.childNames`: the names in a directory, in order.
-/

namespace DesignSystem
set_option autoImplicit false

inductive Entry where
  | file (content : Bytes)
  | directory (children : List (String × Entry))

namespace Entry

def isFile : Entry → Bool
  | file _ => true
  | directory _ => false

def isDirectory : Entry → Bool
  | file _ => false
  | directory _ => true

/-- The most bytes that a name may have. -/
def maxNameBytes : Nat := 255

def isTooLong (name : String) : Bool := maxNameBytes < (Utf8.encode name.toList).length

def find : List String → Entry → Except DiskFault Entry
  | [], entry => .ok entry
  | _ :: _, file _ => .error .notDirectory
  | name :: names, directory children =>
    if isTooLong name then .error .nameTooLong
    else match children.lookup name with
      | none => .error .absent
      | some entry => find names entry

/-- The tree after a change of the entry that names lead to; the change is told whether and what
entry is there. Only the last name may be absent. -/
def alter (change : Option Entry → Except DiskFault Entry) :
    List String → Entry → Except DiskFault Entry
  | [], entry => change (some entry)
  | _ :: _, file _ => .error .notDirectory
  | name :: names, directory children =>
    if isTooLong name then .error .nameTooLong
    else match children.lookup name, names with
      | some entry, names => do
        let changed ← alter change names entry
        return directory (insertEntry children name changed)
      | none, [] => do
        let changed ← change none
        return directory (insertEntry children name changed)
      | none, _ :: _ => .error .absent

/-- The tree without the entry that names lead to. -/
def erase : List String → Entry → Entry
  | [], entry => entry
  | _ :: _, file content => file content
  | [name], directory children => directory (children.filter (·.1 != name))
  | name :: names, directory children =>
    match children.lookup name with
    | none => directory children
    | some entry => directory (insertEntry children name (erase names entry))

/-- A file with this content in place of a file or of nothing. -/
def writeChange (content : Bytes) : Option Entry → Except DiskFault Entry
  | none | some (file _) => .ok (file content)
  | some (directory _) => .error .isDirectory

/-- An empty directory in place of nothing. -/
def makeChange : Option Entry → Except DiskFault Entry
  | none => .ok (directory [])
  | some _ => .error .alreadyThere

/-- The names in a directory by code point, none in a file. -/
def childNames : Entry → List String
  | file _ => []
  | directory children => (children.map Prod.fst).eraseDups.mergeSort

mutual

/-- All entries below an entry, each with its names behind a spelling and, if it is a file, its
content. -/
def walk (spelling : String) : Entry → List (String × Option Bytes)
  | file content => [(spelling, some content)]
  | directory children => (spelling ++ "/", none) :: walkChildren (spelling ++ "/") children

def walkChildren (spelling : String) : List (String × Entry) → List (String × Option Bytes)
  | [] => []
  | child :: children => walkChild spelling child ++ walkChildren spelling children

def walkChild (spelling : String) : String × Entry → List (String × Option Bytes)
  | (name, entry) => walk (spelling ++ name) entry

end

end Entry
end DesignSystem
