import DesignSystem.Text.Quoted

/-! # Faults of the file system

All faults are those of paths: they lead nowhere, or to an entry of the wrong kind, or are too long.
No fault stands for a permission, a link or a full disk. A file that has been opened is read, and is
written with all of its bytes; what stops a write after that is a text without bytes, which is no
fault of the file system (see `Slot.store`).

* `DiskFault`: why a path cannot be opened or made.
* `DiskError`: a fault with the path, and its message.
-/

namespace DesignSystem
set_option autoImplicit false

inductive DiskFault where
  | absent
  | alreadyThere
  | notDirectory
  | isDirectory
  | nameTooLong
  deriving DecidableEq, Repr

namespace DiskFault

def number : DiskFault → Nat
  | absent => 2
  | alreadyThere => 17
  | notDirectory => 20
  | isDirectory => 21
  | nameTooLong => 36

def description : DiskFault → String
  | absent => "No such file or directory"
  | alreadyThere => "File exists"
  | notDirectory => "Not a directory"
  | isDirectory => "Is a directory"
  | nameTooLong => "File name too long"

end DiskFault

structure DiskError where
  fault : DiskFault
  path : String
  deriving DecidableEq, Repr

def DiskError.message (error : DiskError) : String :=
  s!"[Errno {error.fault.number}] {error.fault.description}: {quoted error.path}"

end DesignSystem
