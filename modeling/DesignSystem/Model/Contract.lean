import DesignSystem.Model.Tokens

/-! # Model of component contracts

A contract declares the props of a component, its variants and states, where its code is found and
worked examples of its use.

* `ComponentContract`: the model, with `decode` and `document`.
* `ComponentContract.requiredProps`: the props that a usage must supply.
-/

namespace DesignSystem
set_option autoImplicit false

/-! ## Parts of a contract -/

structure PropDefinition where
  type : PropType
  values : Option (List Text)
  default : Option Json
  required : Option Bool
  description : Option Text
  extras : Fields

structure VariantDefinition where
  name : Text
  description : Option Text
  props : Fields
  extras : Fields

structure StateDefinition where
  name : Text
  description : Option Text
  extras : Fields

/-- Where the component is imported from. -/
structure CodeReference where
  importPath : Text
  exportName : Option Text
  extras : Fields

structure ComponentExample where
  name : Option Text
  description : Option Text
  props : Fields
  extras : Fields

namespace PropDefinition

def declared : List (List String) :=
  [["type"], ["values"], ["default"], ["required"], ["description"]]

def decode : Pointer → Json → Decoded PropDefinition :=
  Decoded.model "PropDefinition" fun pointer fields =>
    PropDefinition.mk <$> Decoded.required ["type"] (Decoded.member PropType) pointer fields
      <*> Decoded.optional ["values"] (Decoded.array Decoded.string) pointer fields
      <*> Decoded.optional ["default"] Decoded.any pointer fields
      <*> Decoded.optional ["required"] Decoded.boolean pointer fields
      <*> Decoded.optional ["description"] Decoded.string pointer fields
      <*> Decoded.remaining declared pointer fields

def document (prop : PropDefinition) : Json :=
  .object (("type", Encoded.word prop.type) ::
    Encoded.optional "values" (fun words => .array (words.map Json.string)) prop.values ++
    Encoded.optional "default" Encoded.free prop.default ++
    Encoded.optional "required" Json.bool prop.required ++
    Encoded.optional "description" Json.string prop.description ++
    Encoded.extras prop.extras)

def isRequired (prop : PropDefinition) : Bool := prop.required.getD false

end PropDefinition

namespace VariantDefinition

def declared : List (List String) := [["name"], ["description"], ["props"]]

def decode : Pointer → Json → Decoded VariantDefinition :=
  Decoded.model "VariantDefinition" fun pointer fields =>
    VariantDefinition.mk <$> Decoded.required ["name"] Decoded.string pointer fields
      <*> Decoded.optional ["description"] Decoded.string pointer fields
      <*> Decoded.defaulted ["props"] [] Decoded.anyObject pointer fields
      <*> Decoded.remaining declared pointer fields

def document (variant : VariantDefinition) : Json :=
  .object (("name", .string variant.name) ::
    Encoded.optional "description" Json.string variant.description ++
    [("props", Encoded.free (.object variant.props))] ++ Encoded.extras variant.extras)

end VariantDefinition

namespace StateDefinition

def declared : List (List String) := [["name"], ["description"]]

def decode : Pointer → Json → Decoded StateDefinition :=
  Decoded.model "StateDefinition" fun pointer fields =>
    StateDefinition.mk <$> Decoded.required ["name"] Decoded.string pointer fields
      <*> Decoded.optional ["description"] Decoded.string pointer fields
      <*> Decoded.remaining declared pointer fields

def document (state : StateDefinition) : Json :=
  .object (("name", .string state.name) ::
    Encoded.optional "description" Json.string state.description ++ Encoded.extras state.extras)

end StateDefinition

namespace CodeReference

def declared : List (List String) := [["importPath", "import_path"], ["exportName", "export_name"]]

def decode : Pointer → Json → Decoded CodeReference :=
  Decoded.model "CodeReference" fun pointer fields =>
    CodeReference.mk
      <$> Decoded.required ["importPath", "import_path"] Decoded.string pointer fields
      <*> Decoded.optional ["exportName", "export_name"] Decoded.string pointer fields
      <*> Decoded.remaining declared pointer fields

def document (code : CodeReference) : Json :=
  .object (("importPath", .string code.importPath) ::
    Encoded.optional "exportName" Json.string code.exportName ++ Encoded.extras code.extras)

end CodeReference

namespace ComponentExample

def declared : List (List String) := [["name"], ["description"], ["props"]]

def decode : Pointer → Json → Decoded ComponentExample :=
  Decoded.model "ComponentExample" fun pointer fields =>
    ComponentExample.mk <$> Decoded.optional ["name"] Decoded.string pointer fields
      <*> Decoded.optional ["description"] Decoded.string pointer fields
      <*> Decoded.defaulted ["props"] [] Decoded.anyObject pointer fields
      <*> Decoded.remaining declared pointer fields

def document (e : ComponentExample) : Json :=
  .object (Encoded.optional "name" Json.string e.name ++
    Encoded.optional "description" Json.string e.description ++
    [("props", Encoded.free (.object e.props))] ++ Encoded.extras e.extras)

end ComponentExample

/-! ## Contracts -/

structure ComponentContract where
  schema : Option Text
  version : Option Text
  name : Text
  description : Option Text
  platformTargets : List Platform
  props : Dict PropDefinition
  variants : Option (List VariantDefinition)
  states : Option (List StateDefinition)
  code : Option CodeReference
  examples : Option (List ComponentExample)

namespace ComponentContract

def decode (document : Json) : Decoded ComponentContract :=
  Decoded.model "ComponentContract" (fun pointer fields =>
    ComponentContract.mk <$> Decoded.optional schemaNames Decoded.string pointer fields
      <*> Decoded.optional versionNames Decoded.string pointer fields
      <*> Decoded.required ["name"] Decoded.string pointer fields
      <*> Decoded.optional ["description"] Decoded.string pointer fields
      <*> Decoded.required ["platformTargets", "platform_targets"]
        (Decoded.array (Decoded.member Platform)) pointer fields
      <*> Decoded.defaulted ["props"] .empty (Decoded.dict PropDefinition.decode) pointer fields
      <*> Decoded.optional ["variants"] (Decoded.array VariantDefinition.decode) pointer fields
      <*> Decoded.optional ["states"] (Decoded.array StateDefinition.decode) pointer fields
      <*> Decoded.optional ["code"] CodeReference.decode pointer fields
      <*> Decoded.optional ["examples"] (Decoded.array ComponentExample.decode) pointer fields)
    [] document

def arrayOf {α : Type} (encode : α → Json) (parts : List α) : Json := .array (parts.map encode)

def document (contract : ComponentContract) : Json :=
  .object (Encoded.optional "$schema" Json.string contract.schema ++
    Encoded.optional "$version" Json.string contract.version ++
    [("name", .string contract.name)] ++
    Encoded.optional "description" Json.string contract.description ++
    [("platformTargets", arrayOf Encoded.word contract.platformTargets),
      ("props", Encoded.dict PropDefinition.document contract.props)] ++
    Encoded.optional "variants" (arrayOf VariantDefinition.document) contract.variants ++
    Encoded.optional "states" (arrayOf StateDefinition.document) contract.states ++
    Encoded.optional "code" CodeReference.document contract.code ++
    Encoded.optional "examples" (arrayOf ComponentExample.document) contract.examples)

/-- The names of the props that a usage must supply, in order. -/
def requiredProps (contract : ComponentContract) : List String :=
  (contract.props.entries.filter (·.2.isRequired)).map Prod.fst

end ComponentContract

end DesignSystem
