/-! # Paths

A path is the list of its parts below the current directory. It may be spelled with the name of
that directory in front, as absolute paths are.

* `Path.ofText`: the path of a text; empty parts and single dots are left out.
* `Path.text`: the spelling of a path.
* `Path.names`: the names that a path goes down, a double dot cancelling the part before it.
-/

namespace DesignSystem
set_option autoImplicit false

structure Path where
  /-- The spelling of the current directory, if it is part of the path's. -/
  base : Option String
  parts : List String
  deriving DecidableEq, Repr

namespace Path

/-- The pieces of a text between its slashes. -/
def splitSlash : List Char → List (List Char)
  | [] => [[]]
  | c :: rest =>
    if c = '/' then [] :: splitSlash rest
    else match splitSlash rest with
      | [] => [[c]]
      | piece :: pieces => (c :: piece) :: pieces

def partsOf (text : String) : List String :=
  ((splitSlash text.toList).map String.ofList).filter fun part => part != "" && part != "."

def ofText (text : String) : Path :=
  ⟨if text.toList.head? = some '/' then some "" else none, partsOf text⟩

/-- The parts, each after a slash. -/
def slashed : List String → String
  | [] => ""
  | part :: parts => "/" ++ part ++ slashed parts

def text (path : Path) : String :=
  match path.base, path.parts with
  | none, [] => "."
  | none, part :: parts => part ++ slashed parts
  | some base, parts => if base = "" && parts.isEmpty then "/" else base ++ slashed parts

def child (path : Path) (name : String) : Path := { path with parts := path.parts ++ [name] }

/-- The names that parts go down, after those already gone down. -/
def goDown (gone : List String) : List String → List String
  | [] => gone
  | part :: parts => goDown (if part = ".." then gone.dropLast else gone ++ [part]) parts

def names (path : Path) : List String := goDown [] path.parts

/-- The same place, spelled below a directory unless it is absolute, and without double dots. -/
def resolve (directory : String) (path : Path) : Path :=
  ⟨some (path.base.getD directory), path.names⟩

/-- Whether a path has a NUL character, which no entry has in its name. -/
def hasNul (path : Path) : Bool := path.parts.any (·.toList.contains '\x00')

end Path
end DesignSystem
