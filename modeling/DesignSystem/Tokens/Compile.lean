import DesignSystem.Model.Tokens
import DesignSystem.Outcome

/-! # Compiling tokens

Semantic tokens are resolved to core values, and numeric values are rendered by the rule for their
category. Of several rules for a category the last one counts.

* `PlatformRules.ruleMap`: the rule of each category.
* `TokenValue.transformed`: a value under a rule.
* `compile`: the values of all semantic tokens, or the first one that cannot be had.
-/

namespace DesignSystem
set_option autoImplicit false

/-- The values of semantic tokens in their order. -/
abbrev CompiledTokens := Dict TokenValue

/-- The base of rem values where a rule gives none. -/
def defaultRemBase : Number := .int 16

/-- Rules by category. -/
abbrev RuleMap := Dict PlatformRule Text

/-- The rule of each category, categories being in the order of their first rules. -/
def PlatformRules.ruleMap (platform : PlatformRules) : RuleMap :=
  .ofList (platform.rules.map fun rule => (rule.category, rule))

/-! ## Values -/

def withUnit (number : Number) (unit : String) : Except NumberFault TokenValue := do
  let rendered ← number.rendered
  return .text (.ofChars (rendered ++ unit.toList))

def Number.transformed (number : Number) (rule : PlatformRule) : Except NumberFault TokenValue :=
  match rule.transform with
  | .px => withUnit number "px"
  | .rem => do
    let quotient ← number.div (rule.remBase.getD defaultRemBase)
    withUnit (.float quotient) "rem"
  | .number | .passthrough => .ok (.number number)

/-- A value under a rule, if there is one; texts stay as they are. -/
def TokenValue.transformed (value : TokenValue) (rule : Option PlatformRule) :
    Except NumberFault TokenValue :=
  match value, rule with
  | .number n, some rule => n.transformed rule
  | value, _ => .ok value

/-! ## Tokens -/

/-- The core token that a ref names. -/
def CoreTokens.named? (core : CoreTokens) (ref : Text) : Option CoreToken :=
  ref.string?.bind core.tokens.find?

/-- A semantic token names a core token that is not there. -/
def unknownRef (name : String) (ref : Text) : Failure :=
  ⟨.tokenRefNotFound,
    s!"Semantic token \"{name}\" references unknown core token \"" ++ ref ++ "\"", none,
    [("tokenName", .string name), ("ref", .string ref)]⟩

def ruleFor (rules : RuleMap) (token : CoreToken) : Option PlatformRule :=
  token.category.bind fun category => rules.find? (Vocabulary.word category)

def compileToken (core : CoreTokens) (rules : RuleMap) (name : String)
    (token : SemanticToken) : Outcome TokenValue :=
  match core.named? token.ref with
  | none => .failed (unknownRef name token.ref)
  | some found =>
    match found.value.transformed (ruleFor rules found) with
    | .ok value => .ok value
    | .error fault => .aborted (.number fault)

/-- Values for the entries of a list under their names. -/
def compileEntries {α : Type} (value : String → α → Outcome TokenValue) :
    List (String × α) → Outcome (List (String × TokenValue))
  | [] => .ok []
  | entry :: rest => do
    let compiled ← value entry.1 entry.2
    let others ← compileEntries value rest
    return (entry.1, compiled) :: others

/-- The values of all semantic tokens on a platform. -/
def compile (core : CoreTokens) (semantic : SemanticTokens) (platform : PlatformRules) :
    Outcome CompiledTokens := do
  let entries ← compileEntries (compileToken core platform.ruleMap) semantic.tokens.entries
  return .ofList entries

end DesignSystem
