import DesignSystem.Proofs.Check.ContractShape
import DesignSystem.Proofs.Check.TokenShape

/-! # Checks that return

A check that looks at a number stops on an integer that no finite binary64 number is nearest to.
Nothing else stops a check.

* `Json.IsBeyondRange`: these integers.
* `Shape.StopsCore`, `Shape.StopsPlatform`: the documents that have one at a place that is looked
  at.
* `Schema.Judges`: a check returns, and its report is valid for exactly the documents of a shape.
* `Schema.check_returns`: the documents on which each check returns.
* `Schema.check_returns_oversized`: documents on which two of them do not.
-/

namespace DesignSystem
set_option autoImplicit false

/-! ## Integers beyond the range -/

def Json.IsBeyondRange (document : Json) : Prop :=
  ∃ n : ℤ, document = .number (.int n) ∧ ¬ (Number.int n).IsFinite

theorem Json.isOversized_iff {document : Json} :
    document.isOversized = true ↔ document.IsBeyondRange := by
  cases document with
  | number n =>
    cases n with
    | int n =>
      have finite : (Number.int n).IsFinite ↔ (Binary64.ofInt n).isFinite = true :=
        (Binary64.ofInt_isFinite n).symm
      by_cases fits : (Binary64.ofInt n).isFinite = true <;>
        simp [isOversized, IsBeyondRange, Number.toFloat, Except.toOption, finite, fits]
    | float x => simp [isOversized, IsBeyondRange, Number.toFloat, Except.toOption]
  | _ => simp [isOversized, IsBeyondRange]

namespace Shape

/-- A core token has such an integer for its value. -/
def StopsCore (document : Json) : Prop :=
  document.IsObject fun fields => fields.Has "tokens" (Json.IsObject fun tokens =>
    ∃ token ∈ tokens, token.2.IsObject (Fields.Has · "value" Json.IsBeyondRange))

/-- A platform rule has such an integer for its base. -/
def StopsPlatform (document : Json) : Prop :=
  document.IsObject fun fields => fields.Has "rules" fun part =>
    ∃ rules, part = .array rules ∧
      ∃ rule ∈ rules, rule.IsObject (Fields.Has · "remBase" Json.IsBeyondRange)

end Shape

namespace Check

theorem fieldOversized_iff (name : String) (document : Json) :
    fieldOversized name document = true ↔
      document.IsObject (Fields.Has · name Json.IsBeyondRange) := by
  cases document with
  | object fields =>
    rw [fieldOversized, Option.any_eq_true]
    simp only [Json.isOversized_iff, Json.IsObject, Json.object.injEq, exists_eq_left',
      Fields.Has]
  | _ => simp [fieldOversized, Json.IsObject]

theorem coreTokensOversized_iff (document : Json) :
    coreTokensOversized document = true ↔ Shape.StopsCore document := by
  unfold coreTokensOversized Shape.StopsCore
  split
  · next fields =>
    simp only [Json.IsObject, Json.object.injEq, exists_eq_left', Fields.Has]
    split
    · next tokens found => simp [found, fieldOversized_iff, Json.IsObject, Fields.Has]
    · next other =>
      refine iff_of_false Bool.false_ne_true ?_
      rintro ⟨_, found, tokens, rfl, -⟩
      exact other tokens found
  · next other =>
    refine iff_of_false Bool.false_ne_true ?_
    rintro ⟨fields, rfl, -⟩
    exact other fields rfl

theorem platformRulesOversized_iff (document : Json) :
    platformRulesOversized document = true ↔ Shape.StopsPlatform document := by
  unfold platformRulesOversized Shape.StopsPlatform
  split
  · next fields =>
    simp only [Json.IsObject, Json.object.injEq, exists_eq_left', Fields.Has]
    split
    · next rules found => simp [found, fieldOversized_iff, Json.IsObject, Fields.Has]
    · next other =>
      refine iff_of_false Bool.false_ne_true ?_
      rintro ⟨_, found, rules, rfl, -⟩
      exact other rules found
  · next other =>
    refine iff_of_false Bool.false_ne_true ?_
    rintro ⟨fields, rfl, -⟩
    exact other fields rfl

/-- The second phase of a contract's check relies on parts that the first has found in place. -/
theorem contractMeaning?_returns (document : Json) :
    contractStructure document ≠ [] ∨ ∃ issues, contractMeaning? document = some issues := by
  by_cases structural : contractStructure document = []
  · obtain ⟨fields, rfl, shape⟩ := (contractStructure_decides document).mp structural
    obtain ⟨_, found, declared, rfl, -⟩ := shape.props
    obtain ⟨issues, returns, -⟩ := contractMeaning?_of_structure shape found
    exact .inr ⟨issues, returns⟩
  · exact .inl structural

end Check

/-! ## Checks -/

namespace Schema

/-- A check returns, and its report is valid for exactly the documents of a shape. -/
def Judges (outcome : Except NumberFault Report) (shape : Prop) : Prop :=
  ∃ report, outcome = .ok report ∧ (report.valid = true ↔ shape)

theorem total_judges {issues : Json → List Issue} {document : Json} {shape : Prop}
    (decides : issues document = [] ↔ shape) : Judges (total issues document) shape := by
  refine ⟨_, rfl, ?_⟩
  rw [← decides]
  exact List.isEmpty_iff

theorem guarded_eq_error {oversized : Json → Bool} {document : Json}
    (large : oversized document = true) (issues : Json → List Issue) :
    guarded oversized issues document = .error .integerTooLarge := by
  rw [guarded, if_pos large]

theorem guarded_judges {oversized : Json → Bool} {issues : Json → List Issue} {document : Json}
    {shape stops : Prop} (decides : issues document = [] ↔ shape)
    (looks : oversized document = true ↔ stops) :
    (Judges (guarded oversized issues document) shape ↔ ¬ stops) ∧
      (guarded oversized issues document = .error .integerTooLarge ↔ stops) := by
  by_cases large : oversized document = true
  · have errs := guarded_eq_error large issues
    have none : ¬ Judges (guarded oversized issues document) shape := by
      rintro ⟨report, returns, -⟩
      cases errs.symm.trans returns
    exact ⟨iff_of_false none (not_not_intro (looks.mp large)), iff_of_true errs (looks.mp large)⟩
  · have fits : oversized document = false := eq_false_of_ne_true large
    have judges : Judges (guarded oversized issues document) shape := by
      rw [guarded_eq_ok fits]
      exact total_judges decides
    have runs : guarded oversized issues document ≠ .error .integerTooLarge := by
      simp [guarded_eq_ok fits]
    exact ⟨iff_of_true judges (mt looks.mpr large), iff_of_false runs (mt looks.mpr large)⟩

theorem core_check_oversized {document : Json}
    (large : Check.coreTokensOversized document = true) :
    core.check document = .error .integerTooLarge := guarded_eq_error large _

theorem platform_check_oversized {document : Json}
    (large : Check.platformRulesOversized document = true) :
    platform.check document = .error .integerTooLarge := guarded_eq_error large _

/-- The checks of semantic tokens, manifests and contracts return on every document, and what they
find valid are exactly the documents of their shapes. So do the checks of core tokens and platform
rules unless a value of a token, or a base of a rule, is an integer beyond the range of binary64,
on which they stop. -/
theorem check_returns (document : Json) :
    Judges (semantic.check document) (document.IsObject Shape.SemanticTokens) ∧
    Judges (system.check document) (document.IsObject Shape.SystemManifest) ∧
    ((Check.contractStructure document ≠ [] ∨
        ∃ issues, Check.contractMeaning? document = some issues) ∧
      ((Report.mk (Check.contract document)).valid = true ↔ document.IsObject Shape.Contract)) ∧
    ((Judges (core.check document) (document.IsObject Shape.CoreTokens) ↔
        ¬ Shape.StopsCore document) ∧
      (core.check document = .error .integerTooLarge ↔ Shape.StopsCore document)) ∧
    ((Judges (platform.check document) (document.IsObject Shape.PlatformRules) ↔
        ¬ Shape.StopsPlatform document) ∧
      (platform.check document = .error .integerTooLarge ↔ Shape.StopsPlatform document)) := by
  have contract : (Report.mk (Check.contract document)).valid = true ↔
      document.IsObject Shape.Contract := by
    rw [← Check.contract_decides]
    exact List.isEmpty_iff
  exact ⟨total_judges (Check.semanticTokens_decides document),
    total_judges (Check.systemManifest_decides document),
    ⟨Check.contractMeaning?_returns document, contract⟩,
    guarded_judges (Check.coreTokens_decides document) (Check.coreTokensOversized_iff document),
    guarded_judges (Check.platformRules_decides document)
      (Check.platformRulesOversized_iff document)⟩

/-- One core token with a value. -/
def tokensWithValue (value : Json) : Json :=
  .object [("tokens", .object [("size", .object [("value", value)])])]

/-- Ten to the 400th, which is a number, is neither accepted nor reported where it is looked at. -/
theorem check_returns_oversized :
    let large : Json := .int (Nat.pow 10 400)
    (∀ report, core.check (tokensWithValue large) ≠ .ok report) ∧
      core.check (tokensWithValue large) = .error .integerTooLarge ∧
      (∀ report, platform.check (rulesWithBase large) ≠ .ok report) ∧
      platform.check (rulesWithBase large) = .error .integerTooLarge := by
  intro large
  have coreStops : core.check (tokensWithValue large) = .error .integerTooLarge :=
    core_check_oversized (by decide +kernel)
  have platformStops : platform.check (rulesWithBase large) = .error .integerTooLarge :=
    platform_check_oversized (by decide +kernel)
  refine ⟨fun report returns => ?_, coreStops, fun report returns => ?_, platformStops⟩
  · cases coreStops.symm.trans returns
  · cases platformStops.symm.trans returns

end Schema
end DesignSystem
