import DesignSystem.Issue
import DesignSystem.Vocabulary

/-! # Checks of document structure

A check walks a document and lists what is wrong with it, in the order of the walk. A part of the
wrong type is reported once and not entered.

* `Flaw`: what can be wrong with a part, with its message, its code and the value reported.
* `Check.object`, `Check.array`, `Check.string`, …: the checks of one part.
* `Check.optional`, `Check.entries`, `Check.items`: the walk into fields and items.
-/

namespace DesignSystem
set_option autoImplicit false

/-! ## Flaws -/

inductive Flaw where
  | wrongType (expected : String) (found : Json)
  | missingField (name : String)
  | additionalField (name : String)
  | tooFewItems (least : Nat) (found : Json)
  | notAllowed (words : List String) (found : Json)
  | notComponentName (found : Json)
  | notPositive (found : Json)
  | enumWithoutValues
  | exampleOfUnknownProp (name : String)

namespace Flaw

/-- The pattern of component names, as it is reported. -/
def componentNamePattern : String := "^[A-Z][a-zA-Z0-9]*$"

def message : Flaw → String
  | wrongType expected found => s!"must be {expected}, got {found.kind}"
  | missingField name => s!"must have required property '{name}'"
  | additionalField name => s!"must NOT have additional property '{name}'"
  | tooFewItems least _ => s!"must NOT have fewer than {least} items"
  | notAllowed words _ =>
    "must be equal to one of the allowed values: " ++ String.intercalate ", " words
  | notComponentName _ => s!"must match pattern \"{componentNamePattern}\""
  | notPositive _ => "must be > 0"
  | enumWithoutValues => "Enum props must have values array"
  | exampleOfUnknownProp name => s!"Example uses unknown prop: {name}"

def code : Flaw → String
  | wrongType .. => "type"
  | missingField _ => "required"
  | additionalField _ => "additionalProperties"
  | tooFewItems .. => "minItems"
  | notAllowed .. => "enum"
  | notComponentName _ => "pattern"
  | notPositive _ => "exclusiveMinimum"
  | enumWithoutValues => "enum_missing_values"
  | exampleOfUnknownProp _ => "unknown_prop"

def value : Flaw → Option Json
  | wrongType _ found | tooFewItems _ found | notAllowed _ found | notComponentName found
  | notPositive found => Issue.reported found
  | additionalField name => some (.string name)
  | missingField _ | enumWithoutValues | exampleOfUnknownProp _ => none

/-- The flaw as an issue of the part at a pointer. -/
def issue (flaw : Flaw) (pointer : Pointer) : Issue :=
  ⟨.pointer pointer, flaw.message, flaw.code, flaw.value⟩

end Flaw

namespace Check

/-! ## Scalars -/

def string (pointer : Pointer) (document : Json) : List Issue :=
  if document.isString then [] else [(Flaw.wrongType "string" document).issue pointer]

def boolean (pointer : Pointer) (document : Json) : List Issue :=
  if document.isBool then [] else [(Flaw.wrongType "boolean" document).issue pointer]

def member (α : Type) [Vocabulary α] (pointer : Pointer) (document : Json) : List Issue :=
  match document with
  | .string word =>
    if word.string?.any (Vocabulary.words α).contains then []
    else [(Flaw.notAllowed (Vocabulary.words α) document).issue pointer]
  | _ => [(Flaw.wrongType "string" document).issue pointer]

/-! ## Containers -/

/-- An object with its required fields, entered by `inside`. -/
def object (required : List String) (inside : Pointer → Fields → List Issue) (pointer : Pointer)
    (document : Json) : List Issue :=
  match document with
  | .object fields =>
    (required.filter (!Fields.has fields ·)).map
        (fun name => (Flaw.missingField name).issue (pointer ++ [.field name])) ++
      inside pointer fields
  | _ => [(Flaw.wrongType "object" document).issue pointer]

def closed (known : List String) (pointer : Pointer) (fields : Fields) : List Issue :=
  (fields.filter (!known.contains ·.1)).map
    fun field => (Flaw.additionalField field.1).issue (pointer ++ [.field field.1])

/-- An array with its least count of items, entered by `inside`. -/
def array (least : Nat) (inside : Pointer → List Json → List Issue) (pointer : Pointer)
    (document : Json) : List Issue :=
  match document with
  | .array items =>
    (if items.length < least then [(Flaw.tooFewItems least document).issue pointer] else []) ++
      inside pointer items
  | _ => [(Flaw.wrongType "array" document).issue pointer]

/-! ## Parts -/

def optional (name : String) (check : Pointer → Json → List Issue) (pointer : Pointer)
    (fields : Fields) : List Issue :=
  match fields.get? name with
  | some document => check (pointer ++ [.field name]) document
  | none => []

def entries (check : Pointer → Json → List Issue) (pointer : Pointer) (fields : Fields) :
    List Issue :=
  fields.flatMap fun field => check (pointer ++ [.field field.1]) field.2

def items (check : Pointer → Json → List Issue) (pointer : Pointer) (documents : List Json) :
    List Issue :=
  documents.zipIdx.flatMap fun (document, position) => check (pointer ++ [.index position]) document

/-- An object that only has to be one. -/
def anyObject : Pointer → Json → List Issue := object [] fun _ _ => []

/-- The fields that say which schema and version a document follows. -/
def metaFields : List String := ["$schema", "$version"]

def schemaAndVersion (pointer : Pointer) (fields : Fields) : List Issue :=
  optional "$schema" string pointer fields ++ optional "$version" string pointer fields

end Check
end DesignSystem
