import DesignSystem.CommandLine.Run

/-! # The program

The part of the file system that a command is about is loaded, the command is run on it, and what
the run has made or changed is written back. Places are spelled from the top of the file system,
so that a root may lie anywhere.
-/

namespace DesignSystem.Program
set_option autoImplicit false

/-- The children of these names that a directory has, read in full. -/
partial def loadAll (path : String) (chosen : String → Bool) : IO (List (String × Entry)) := do
  let place ← IO.FS.realPath s!"{path}/"
  let names := (← place.readDir).toList.map (·.fileName)
  (names.filter chosen).mapM fun name => do
    let below := s!"{path}/{name}"
    let child ← IO.FS.realPath below
    if ← child.isDir then
      let children ← loadAll below fun _ => true
      return (name, Entry.directory children)
    else
      let content ← IO.FS.readBinFile child
      return (name, Entry.file content.toList)

/-- The files of a workspace, with nothing else of the directories that names lead through. -/
def loadWorkspace : String → List String → IO Entry
  | path, [] => do
    let children ← loadAll path [systemFile, tokensFolder, contractsFolder].contains
    return .directory children
  | path, name :: rest => do
    let place ← IO.FS.realPath s!"{path}/"
    let names := (← place.readDir).toList.map (·.fileName)
    if !names.contains name then return .directory []
    let below := s!"{path}/{name}"
    let child ← IO.FS.realPath below
    let entry ← if ← child.isDir then loadWorkspace below rest else pure (.file [])
    return .directory [(name, entry)]

/-- Writes back the directories and files that a run has made or changed. -/
def save (before after : Disk) : IO Unit := do
  let kept := before.listing
  for (name, content) in after.listing do
    match content with
    | none => if (kept.lookup name).isNone then IO.FS.createDirAll s!"/{name}"
    | some bytes =>
      if kept.lookup name != some (some bytes) then
        IO.FS.writeBinFile s!"/{name}" ⟨bytes.toArray⟩

/-- A root spelled from the top of the file system. -/
def fromTop (directory root : String) : String :=
  if (Path.ofText root).base.isSome then root else s!"{directory}/{root}"

/-- A command with its root spelled from the top of the file system, and that root if any. -/
def settle (directory : String) : CommandLine.Command → Option String × CommandLine.Command
  | .init path force =>
    let root := fromTop directory path
    (some root, .init root force)
  | .validate path =>
    let root := path.map (fromTop directory)
    (root, .validate root)
  | .tokens path platform theme format =>
    let root := path.map (fromTop directory)
    (root, .tokens root platform theme format)

def print : Except Abort CommandLine.Printed → IO UInt32
  | .ok printed => do
    IO.print printed.stdout
    IO.eprint printed.stderr
    return printed.exitCode.toUInt32
  | .error abort => do
    IO.eprintln abort.message
    return 1

end DesignSystem.Program

open DesignSystem in
def main (words : List String) : IO UInt32 := do
  let directory := (← IO.currentDir).toString
  match CommandLine.Command.ofWords words with
  | .error notice =>
    Program.print (.ok ⟨notice.exitCode, notice.stdout, notice.stderr⟩)
  | .ok command =>
    let (root, command) := Program.settle directory command
    let entry ← Program.loadWorkspace "" (Path.ofText (root.getD "")).names
    let disk := Disk.ofTop entry
    let (printed, after) := CommandLine.runCommand "" disk command
    Program.save disk after
    Program.print printed
