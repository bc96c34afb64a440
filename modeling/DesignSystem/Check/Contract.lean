import DesignSystem.Check.Basic
import DesignSystem.Text.Newline

/-! # Checks of component contracts

A contract is checked in two phases; the second runs on contracts without structural issues only.

* `Check.contractStructure`: the shape of a contract.
* `Check.contractMeaning?`: enum props have values, and examples use declared props only; `none`
  when a part that it relies on is missing.
* `Check.contract`: both phases.
-/

namespace DesignSystem.Check
set_option autoImplicit false

/-! ## Structure -/

/-- A component name: an ASCII capital, then ASCII letters and digits; one line feed may end it. -/
def isComponentName : List Char → Bool
  | [] => false
  | c :: rest => c.isUpper && (dropFinalNewline rest).all Char.isAlphanum

def componentName (pointer : Pointer) (document : Json) : List Issue :=
  match document with
  | .string name =>
    if isComponentName name.chars then [] else [(Flaw.notComponentName document).issue pointer]
  | _ => [(Flaw.wrongType "string" document).issue pointer]

def propDefinition : Pointer → Json → List Issue :=
  object ["type"] fun pointer fields =>
    optional "type" (member PropType) pointer fields ++
      optional "values" (array 0 (items string)) pointer fields ++
      optional "required" boolean pointer fields ++
      optional "description" string pointer fields

def nameAndDescription (pointer : Pointer) (fields : Fields) : List Issue :=
  optional "name" string pointer fields ++ optional "description" string pointer fields

def variant : Pointer → Json → List Issue :=
  object ["name", "props"] fun pointer fields =>
    nameAndDescription pointer fields ++ optional "props" anyObject pointer fields

def state : Pointer → Json → List Issue := object ["name"] nameAndDescription

def codeReference : Pointer → Json → List Issue :=
  object ["importPath"] fun pointer fields =>
    optional "importPath" string pointer fields ++ optional "exportName" string pointer fields

def «example» : Pointer → Json → List Issue :=
  object ["props"] fun pointer fields =>
    nameAndDescription pointer fields ++ optional "props" anyObject pointer fields

def contractFields : List String :=
  metaFields ++ ["name", "description", "platformTargets", "props", "variants", "states", "code",
    "examples"]

def contractStructure (document : Json) : List Issue :=
  object ["name", "platformTargets", "props"] (fun pointer fields =>
    closed contractFields pointer fields ++
      schemaAndVersion pointer fields ++
      optional "description" string pointer fields ++
      optional "name" componentName pointer fields ++
      optional "platformTargets" (array 1 (items (member Platform))) pointer fields ++
      optional "props" (object [] (entries propDefinition)) pointer fields ++
      optional "variants" (array 0 (items variant)) pointer fields ++
      optional "states" (array 0 (items state)) pointer fields ++
      optional "code" codeReference pointer fields ++
      optional "examples" (array 0 (items «example»)) pointer fields) [] document

/-! ## Meaning -/

def fields? : Json → Option Fields
  | .object fields => some fields
  | _ => none

def listsValues (definition : Fields) : Bool :=
  match definition.get? "values" with
  | some (.array (_ :: _)) => true
  | _ => false

/-- An enum prop without values is an issue. -/
def enumIssues? (name : String) (definition : Json) : Option (List Issue) := do
  let fields ← fields? definition
  let type ← fields.get? "type"
  return if type.isWord "enum" && !listsValues fields then
      [Flaw.enumWithoutValues.issue [.field "props", .field name]]
    else []

/-- A prop of an example that the contract does not declare is an issue. -/
def exampleIssues? (declared : Fields) (document : Json) (position : Nat) :
    Option (List Issue) := do
  let fields ← fields? document
  let props ← fields? (← fields.get? "props")
  return (props.filter (!declared.has ·.1)).map fun prop =>
    (Flaw.exampleOfUnknownProp prop.1).issue
      [.field "examples", .index position, .field "props", .field prop.1]

/-- The examples of a contract, none if it lists none. -/
def examplesOf (fields : Fields) : List Json :=
  match fields.get? "examples" with
  | some (.array examples) => examples
  | _ => []

def contractMeaning? (document : Json) : Option (List Issue) := do
  let fields ← fields? document
  let props ← fields? (← fields.get? "props")
  let enums ← props.mapM fun prop => enumIssues? prop.1 prop.2
  let examples ← (examplesOf fields).zipIdx.mapM fun (document, position) =>
    exampleIssues? props document position
  return enums.flatten ++ examples.flatten

/-! ## Both phases -/

def contract (document : Json) : List Issue :=
  match contractStructure document with
  | [] => (contractMeaning? document).getD []
  | issues => issues

end DesignSystem.Check
