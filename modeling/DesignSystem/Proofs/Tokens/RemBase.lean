import DesignSystem.Proofs.Check.TokenShape
import DesignSystem.Proofs.Model.Origin

/-! # Bases of rem values

The check of platform rules looks for a base under the name that documents have for it; the model
takes it under another name too.

* `PlatformRule.Divisible`: a rule whose base, if it gives one, is a positive number.
* `PlatformRule.divisible_of_decode`: so is every rule in whose document no other name stands in.
* `PlatformRules.origin`: the documents that the rules of decoded platform rules come from.
-/

namespace DesignSystem
set_option autoImplicit false

/-- Values can be divided by the base, if there is one. -/
def PlatformRule.Divisible (rule : PlatformRule) : Prop :=
  ∀ base, rule.remBase = some base → base.IsFinite ∧ 0 < base.value

/-- A rule that passes its check gives a base that was checked, unless its base goes by another
name. -/
theorem PlatformRule.divisible_of_decode {pointer : Pointer} {fields : Fields}
    {rule : PlatformRule} (decodes : decode pointer (.object fields) = .ok rule)
    (shape : Shape.PlatformRule fields) (alone : ¬ fields.StandsIn "rem_base" "remBase") :
    rule.Divisible := by
  obtain ⟨_, same, decodedBase⟩ := PlatformRule.decode_eq_ok decodes
  cases same
  intro base gives
  rw [gives] at decodedBase
  cases found : fields.get? "remBase" with
  | none =>
    rw [Decoded.optional_alone found (by simpa using alone)] at decodedBase
    cases decodedBase
  | some part =>
    obtain ⟨n, rfl, finite, positive⟩ := shape.remBase part found
    rw [Decoded.optional_of_get? found (by simp)] at decodedBase
    cases decodedBase
    exact ⟨finite, positive⟩

/-- The rules come from the items of a document, in order. -/
theorem PlatformRules.origin {document : Json} {rules : PlatformRules}
    (decodes : PlatformRules.decode document = .ok rules)
    (shape : document.IsObject Shape.PlatformRules) :
    ∃ (fields : Fields) (items : List Json), document = .object fields ∧
      fields.get? "rules" = some (.array items) ∧
      List.Forall₂ (fun rule item => ∃ part, item = .object part ∧ Shape.PlatformRule part ∧
        ∃ place, PlatformRule.decode place item = .ok rule) rules.rules items := by
  obtain ⟨fields, rfl, shape⟩ := shape
  obtain ⟨_, same, -, decodedRules⟩ := PlatformRules.decode_eq_ok decodes
  cases same
  obtain ⟨_, found, items, rfl, each⟩ := shape.rules
  rw [Decoded.defaulted_of_get? found] at decodedRules
  obtain ⟨_, same, origins⟩ := Decoded.array_eq_ok decodedRules
  cases same
  refine ⟨fields, items, rfl, found, ?_⟩
  rw [List.forall₂_iff_zip] at origins ⊢
  refine ⟨origins.1, fun {rule item} mem => ?_⟩
  obtain ⟨part, rfl, partShape⟩ := each item (List.of_mem_zip mem).2
  exact ⟨part, rfl, partShape, origins.2 mem⟩

end DesignSystem
