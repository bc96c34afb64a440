import DesignSystem.Json.Basic

/-! # Pointers into documents

A pointer is the list of steps from the root of a document to one of its parts.

* `Step`: a field name or an array index.
* `Pointer.text`: a pointer as text, each step after a slash; the root is a single slash.
* `Pointer.resolve`: the part of a document that a pointer leads to.
-/

namespace DesignSystem
set_option autoImplicit false

inductive Step where
  | field (name : String)
  | index (position : Nat)
  deriving DecidableEq, Repr

abbrev Pointer := List Step

/-- A character of a step: the tilde and the slash have escapes. -/
def escapedStepChar (c : Char) : List Char :=
  if c == '~' then ['~', '0'] else if c == '/' then ['~', '1'] else [c]

/-- A step's text after a slash. -/
def stepText (text : String) : String :=
  .ofList ('/' :: text.toList.flatMap escapedStepChar)

namespace Step

/-- The field name, or the index as its numeral. -/
def spelling : Step → String
  | field name => name
  | index position => .ofList (digitsOf position)

def text (step : Step) : String := stepText step.spelling

end Step

namespace Pointer

/-- The steps below the root. -/
def steps : Pointer → String
  | [] => ""
  | step :: rest => step.text ++ steps rest

def text (pointer : Pointer) : String := if pointer.isEmpty then "/" else pointer.steps

def resolve : Pointer → Json → Option Json
  | [], document => some document
  | .field name :: rest, .object fields => (Fields.get? fields name).bind (resolve rest)
  | .index position :: rest, .array items => items[position]?.bind (resolve rest)
  | _ :: _, _ => none

end Pointer
end DesignSystem
