import DesignSystem.Model.Decoded

/-! # Models of the token layers

Core tokens hold raw values, semantic tokens name core tokens for a theme, and platform rules say
how the values of a category are rendered.

* `CoreTokens`, `SemanticTokens`, `PlatformRules`: the three layers, with `decode` and `document`.
* `TokenValue`: the value of a token.
-/

namespace DesignSystem
set_option autoImplicit false

/-! ## Values -/

inductive TokenValue where
  | text (value : Text)
  | number (value : Number)
  deriving DecidableEq

namespace TokenValue

/-- A string, a number, or a truth value as the number 0 or 1. -/
def decode (pointer : Pointer) (document : Json) : Decoded TokenValue :=
  match document with
  | .string value => .ok (text value)
  | .number value => .ok (number value)
  | .bool value => .ok (number (Decoded.truthNumber value))
  | _ => .rejected [Mismatch.notString.issue (pointer ++ [.field "str"]) document,
      Mismatch.notInteger.issue (pointer ++ [.field "int"]) document,
      Mismatch.notNumber.issue (pointer ++ [.field "float"]) document]

def document : TokenValue → Json
  | text value => .string value
  | number value => .number value

end TokenValue

/-- The names of the fields for the schema and the version of a document. -/
def schemaNames : List String := ["$schema", "schema_uri"]

def versionNames : List String := ["$version", "version"]

/-! ## Core tokens -/

structure CoreToken where
  value : TokenValue
  category : Option Category
  description : Option Text

structure CoreTokens where
  schema : Option Text
  version : Option Text
  tokens : Dict CoreToken

namespace CoreToken

def decode : Pointer → Json → Decoded CoreToken :=
  Decoded.model "CoreToken" fun pointer fields =>
    CoreToken.mk <$> Decoded.required ["value"] TokenValue.decode pointer fields
      <*> Decoded.optional ["category"] (Decoded.member Category) pointer fields
      <*> Decoded.optional ["description"] Decoded.string pointer fields

def document (token : CoreToken) : Json :=
  .object (("value", token.value.document) ::
    Encoded.optional "category" Encoded.word token.category ++
    Encoded.optional "description" Json.string token.description)

end CoreToken

namespace CoreTokens

def decode (document : Json) : Decoded CoreTokens :=
  Decoded.model "CoreTokens" (fun pointer fields =>
    CoreTokens.mk <$> Decoded.optional schemaNames Decoded.string pointer fields
      <*> Decoded.optional versionNames Decoded.string pointer fields
      <*> Decoded.defaulted ["tokens"] .empty (Decoded.dict CoreToken.decode) pointer fields)
    [] document

def document (model : CoreTokens) : Json :=
  .object (Encoded.optional "$schema" Json.string model.schema ++
    Encoded.optional "$version" Json.string model.version ++
    [("tokens", Encoded.dict CoreToken.document model.tokens)])

end CoreTokens

/-! ## Semantic tokens -/

structure SemanticToken where
  /-- The name of a core token. -/
  ref : Text
  description : Option Text

structure SemanticTokens where
  schema : Option Text
  version : Option Text
  theme : Theme
  tokens : Dict SemanticToken

namespace SemanticToken

def decode : Pointer → Json → Decoded SemanticToken :=
  Decoded.model "SemanticToken" fun pointer fields =>
    SemanticToken.mk <$> Decoded.required ["ref"] Decoded.string pointer fields
      <*> Decoded.optional ["description"] Decoded.string pointer fields

def document (token : SemanticToken) : Json :=
  .object (("ref", .string token.ref) ::
    Encoded.optional "description" Json.string token.description)

end SemanticToken

namespace SemanticTokens

def decode (document : Json) : Decoded SemanticTokens :=
  Decoded.model "SemanticTokens" (fun pointer fields =>
    SemanticTokens.mk <$> Decoded.optional schemaNames Decoded.string pointer fields
      <*> Decoded.optional versionNames Decoded.string pointer fields
      <*> Decoded.required ["$theme", "theme"] (Decoded.member Theme) pointer fields
      <*> Decoded.defaulted ["tokens"] .empty (Decoded.dict SemanticToken.decode) pointer fields)
    [] document

def document (model : SemanticTokens) : Json :=
  .object (Encoded.optional "$schema" Json.string model.schema ++
    Encoded.optional "$version" Json.string model.version ++
    [("$theme", Encoded.word model.theme),
      ("tokens", Encoded.dict SemanticToken.document model.tokens)])

end SemanticTokens

/-! ## Platform rules -/

structure PlatformRule where
  category : Text
  transform : Transform
  remBase : Option Number

structure PlatformRules where
  schema : Option Text
  version : Option Text
  platform : Platform
  rules : List PlatformRule

namespace PlatformRule

def decode : Pointer → Json → Decoded PlatformRule :=
  Decoded.model "PlatformRule" fun pointer fields =>
    PlatformRule.mk <$> Decoded.required ["category"] Decoded.string pointer fields
      <*> Decoded.required ["transform"] (Decoded.member Transform) pointer fields
      <*> Decoded.optional ["remBase", "rem_base"] Decoded.number pointer fields

def document (rule : PlatformRule) : Json :=
  .object (("category", .string rule.category) :: ("transform", Encoded.word rule.transform) ::
    Encoded.optional "remBase" Json.number rule.remBase)

end PlatformRule

namespace PlatformRules

def decode (document : Json) : Decoded PlatformRules :=
  Decoded.model "PlatformRules" (fun pointer fields =>
    PlatformRules.mk <$> Decoded.optional schemaNames Decoded.string pointer fields
      <*> Decoded.optional versionNames Decoded.string pointer fields
      <*> Decoded.required ["$platform", "platform"] (Decoded.member Platform) pointer fields
      <*> Decoded.defaulted ["rules"] [] (Decoded.array PlatformRule.decode) pointer fields)
    [] document

def document (model : PlatformRules) : Json :=
  .object (Encoded.optional "$schema" Json.string model.schema ++
    Encoded.optional "$version" Json.string model.version ++
    [("$platform", Encoded.word model.platform),
      ("rules", .array (model.rules.map PlatformRule.document))])

end PlatformRules
end DesignSystem
