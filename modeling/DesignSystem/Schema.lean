import DesignSystem.Check.Contract
import DesignSystem.Check.Manifest
import DesignSystem.Check.Tokens
import DesignSystem.Failure
import DesignSystem.Model.Manifest
import DesignSystem.Usage

/-! # Document kinds

Each kind of document has a check, a model with its reading and writing, and the codes of its
failures.

* `Schema`: what a kind of document is read and written by.
* `Schema.system`, `Schema.core`, `Schema.semantic`, `Schema.platform`, `Schema.contract`: the
  kinds.
* `Schema.build`: the model of a document that passes its check.
-/

namespace DesignSystem
set_option autoImplicit false

structure Schema (α : Type) where
  /-- The report on a document; an oversized integer stops the check. -/
  check : Json → Except NumberFault Report
  decode : Json → Decoded α
  encode : α → Json
  /-- The code for a document that is not there. -/
  absent : FailureCode
  /-- The code for a document that is there and cannot be used. -/
  invalid : FailureCode

namespace Schema

/-- A check that an oversized integer stops. -/
def guarded (oversized : Json → Bool) (issues : Json → List Issue) (document : Json) :
    Except NumberFault Report :=
  if oversized document then .error .integerTooLarge else .ok ⟨issues document⟩

/-- A check that nothing stops. -/
def total (issues : Json → List Issue) (document : Json) : Except NumberFault Report :=
  .ok ⟨issues document⟩

/-- The report on a contract: its own issues, then those of its model, then those of its examples as
usages of it; later ones are looked for only where earlier ones are absent. -/
def checkContract (document : Json) : Except NumberFault Report :=
  match Check.contract document with
  | [] =>
    match ComponentContract.decode document with
    | .ok contract => Usage.checkExamples contract
    | .rejected issues => .ok ⟨issues⟩
  | issues => .ok ⟨issues⟩

def system : Schema SystemManifest where
  check := total Check.systemManifest
  decode := SystemManifest.decode
  encode := SystemManifest.document
  absent := .systemManifestNotFound
  invalid := .systemManifestInvalid

def core : Schema CoreTokens where
  check := guarded Check.coreTokensOversized Check.coreTokens
  decode := CoreTokens.decode
  encode := CoreTokens.document
  absent := .tokenFileNotFound
  invalid := .tokenFileInvalid

def semantic : Schema SemanticTokens where
  check := total Check.semanticTokens
  decode := SemanticTokens.decode
  encode := SemanticTokens.document
  absent := .tokenFileNotFound
  invalid := .tokenFileInvalid

def platform : Schema PlatformRules where
  check := guarded Check.platformRulesOversized Check.platformRules
  decode := PlatformRules.decode
  encode := PlatformRules.document
  absent := .tokenFileNotFound
  invalid := .tokenFileInvalid

def contract : Schema ComponentContract where
  check := checkContract
  decode := ComponentContract.decode
  encode := ComponentContract.document
  absent := .contractNotFound
  invalid := .contractInvalid

variable {α : Type}

/-- The model of a document that passes its check, or the report that rejects it. -/
def build (schema : Schema α) (document : Json) : Except NumberFault (Except Report α) := do
  let report ← schema.check document
  if report.valid then
    match schema.decode document with
    | .ok model => return .ok model
    | .rejected issues => return .error ⟨issues⟩
  else return .error report

end Schema
end DesignSystem
