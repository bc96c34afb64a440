import DesignSystem.Check.Basic

/-! # Checks of the token layers

* `Check.coreTokens`: raw values with optional categories.
* `Check.semanticTokens`: the aliases of a theme.
* `Check.platformRules`: how categories are rendered on a platform.
* `Check.coreTokensOversized`, `Check.platformRulesOversized`: whether a number that the check looks
  at is an integer beyond the finite binary64 numbers, which stops the check.
-/

namespace DesignSystem.Check
set_option autoImplicit false

/-! ## Core tokens -/

/-- The value of a core token: a string or a finite number. -/
def coreValue (pointer : Pointer) (document : Json) : List Issue :=
  if document.isString || document.isNumber then []
  else [(Flaw.wrongType "string or number" document).issue pointer]

def coreToken : Pointer → Json → List Issue :=
  object ["value"] fun pointer fields =>
    optional "value" coreValue pointer fields ++
      optional "category" (member Category) pointer fields ++
      optional "description" string pointer fields

def coreTokens (document : Json) : List Issue :=
  object ["tokens"] (fun pointer fields =>
    closed ("tokens" :: metaFields) pointer fields ++ schemaAndVersion pointer fields ++
      optional "tokens" (object [] (entries coreToken)) pointer fields) [] document

def fieldOversized (name : String) : Json → Bool
  | .object fields => (Fields.get? fields name).any Json.isOversized
  | _ => false

def coreTokensOversized : Json → Bool
  | .object fields =>
    match Fields.get? fields "tokens" with
    | some (.object tokens) => tokens.any fun token => fieldOversized "value" token.2
    | _ => false
  | _ => false

/-! ## Semantic tokens -/

def semanticToken : Pointer → Json → List Issue :=
  object ["ref"] fun pointer fields =>
    optional "ref" string pointer fields ++ optional "description" string pointer fields

def semanticTokens (document : Json) : List Issue :=
  object ["$theme", "tokens"] (fun pointer fields =>
    closed ("$theme" :: "tokens" :: metaFields) pointer fields ++
      schemaAndVersion pointer fields ++
      optional "$theme" (member Theme) pointer fields ++
      optional "tokens" (object [] (entries semanticToken)) pointer fields) [] document

/-! ## Platform rules -/

/-- The base of rem values: a positive finite number. -/
def remBase (pointer : Pointer) (document : Json) : List Issue :=
  if document.isNumber then
    if document.isPositive then [] else [(Flaw.notPositive document).issue pointer]
  else [(Flaw.wrongType "number" document).issue pointer]

def platformRule : Pointer → Json → List Issue :=
  object ["category", "transform"] fun pointer fields =>
    optional "category" string pointer fields ++
      optional "transform" (member Transform) pointer fields ++
      optional "remBase" remBase pointer fields

def platformRules (document : Json) : List Issue :=
  object ["$platform", "rules"] (fun pointer fields =>
    closed ("$platform" :: "rules" :: metaFields) pointer fields ++
      schemaAndVersion pointer fields ++
      optional "$platform" (member Platform) pointer fields ++
      optional "rules" (array 0 (items platformRule)) pointer fields) [] document

def platformRulesOversized : Json → Bool
  | .object fields =>
    match Fields.get? fields "rules" with
    | some (.array rules) => rules.any (fieldOversized "remBase")
    | _ => false
  | _ => false

end DesignSystem.Check
