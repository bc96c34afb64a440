import DesignSystem.Json.Display
import DesignSystem.Model.Contract
import DesignSystem.Outcome

/-! # Usages of components

A usage supplies props to a component. All its problems are found in one pass: required props that
are missing, then what is wrong with each supplied prop, in the order in which they are supplied.

* `UsageFlaw`: what can be wrong with a usage.
* `Usage.issues`: the issues of the props supplied to a contract.
* `Usage.check`, `Usage.checkExamples`: the reports on a usage and on a contract's own examples.
* `Usage.checkDocument`: the report on a usage of a contract that is still a document.
-/

namespace DesignSystem
set_option autoImplicit false

/-! ## Flaws -/

inductive UsageFlaw where
  | notObject (found : Json)
  | missingProp (name : String)
  | unknownProp (name : String)
  | notInValues (values : List Text) (found : Json)
  | wrongType (expected : PropType) (found : Json)

namespace UsageFlaw

def message : UsageFlaw → Text
  | notObject found => s!"Props must be an object, got {found.kind}"
  | missingProp name => s!"Required prop missing: {name}"
  | unknownProp name => s!"Unknown prop: {name}"
  | notInValues values _ =>
    "Invalid enum value. Expected one of: " ++ Text.intercalate ", " values
  | wrongType expected found => s!"Expected {Vocabulary.word expected}, got {found.kind}"

def code : UsageFlaw → String
  | notObject _ => "type"
  | missingProp _ => "required_prop_missing"
  | unknownProp _ => "unknown_prop"
  | notInValues .. => "invalid_enum_value"
  | wrongType .. => "type_mismatch"

def value : UsageFlaw → Option Json
  | notObject found | notInValues _ found | wrongType _ found => Issue.reported found
  | missingProp _ | unknownProp _ => none

def issue (flaw : UsageFlaw) (pointer : Pointer) : Issue :=
  ⟨.pointer pointer, flaw.message, flaw.code, flaw.value⟩

end UsageFlaw

namespace Usage

/-! ## Values -/

/-- Whether a value is of the type of a prop; an enum prop takes its listed values. -/
def conforms (prop : PropDefinition) (value : Json) : Bool :=
  match prop.type, value with
  | .enum, .string word => (prop.values.getD []).contains word
  | .enum, _ => false
  | .string, value => value.isString
  | .number, value => value.isNumber
  | .boolean, value => value.isBool

/-- What is wrong with a value that does not conform. -/
def mismatch (prop : PropDefinition) (value : Json) : UsageFlaw :=
  match prop.type with
  | .enum => .notInValues (prop.values.getD []) value
  | type => .wrongType type value

/-! ## Usages -/

def missing (contract : ComponentContract) (supplied : Fields) : List Issue :=
  (contract.requiredProps.filter (!supplied.has ·)).map
    fun name => (UsageFlaw.missingProp name).issue [.field name]

/-- What is wrong with a supplied prop. -/
def suppliedIssues (contract : ComponentContract) (name : String) (value : Json) : List Issue :=
  match contract.props.find? name with
  | none => [(UsageFlaw.unknownProp name).issue [.field name]]
  | some prop => if conforms prop value then [] else [(mismatch prop value).issue [.field name]]

def issues (contract : ComponentContract) (supplied : Fields) : List Issue :=
  missing contract supplied ++
    supplied.flatMap fun prop => suppliedIssues contract prop.1 prop.2

/-- Whether a number prop is supplied an integer beyond the finite binary64 numbers, which stops
the check. -/
def oversized (contract : ComponentContract) (supplied : Fields) : Bool :=
  supplied.any fun prop =>
    match contract.props.find? prop.1 with
    | some definition => definition.type == .number && prop.2.isOversized
    | none => false

def check (contract : ComponentContract) (props : Json) : Except NumberFault Report :=
  match props with
  | .object supplied =>
    if oversized contract supplied then .error .integerTooLarge
    else .ok ⟨issues contract supplied⟩
  | found => .ok ⟨[(UsageFlaw.notObject found).issue []]⟩

/-- The report on the props supplied to a contract document. Its own mismatches come first; a
document that is no object is missed only once the props are to be looked up in it. -/
def checkDocument (contract props : Json) : Except Abort Report :=
  match contract, props with
  | .object _, props =>
    match ComponentContract.decode contract with
    | .ok contract => (check contract props).mapError .number
    | .rejected issues => .ok ⟨issues⟩
  | _, .object _ => .error (.notContract contract.typeName)
  | _, found => .ok ⟨[(UsageFlaw.notObject found).issue []]⟩

/-! ## Examples -/

/-- An issue of an example's props, located in the contract. -/
def relocate (position : Nat) (issue : Issue) : Issue :=
  match issue.place with
  | .pointer pointer =>
    { issue with
      place := .pointer ([.field "examples", .index position, .field "props"] ++ pointer) }
  | .named _ => issue

/-- The report on a contract's own examples as usages of it. -/
def checkExamples (contract : ComponentContract) : Except NumberFault Report :=
  let examples := contract.examples.getD []
  if examples.any fun e => oversized contract e.props then .error .integerTooLarge
  else .ok ⟨examples.zipIdx.flatMap fun (e, position) =>
    (issues contract e.props).map (relocate position)⟩

end Usage
end DesignSystem
