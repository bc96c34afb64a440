import DesignSystem.Proofs.Model.Agreement
import DesignSystem.Proofs.Tokens.RemBase
import DesignSystem.Proofs.Workspace.Write

/-! # Platform rules that are read

* `Workspace.rules_divisible`: the rules of a platform that are read have positive bases, except for
  those whose base goes by another name than in documents.
* `Workspace.rules_divisible_negative`: such a rule can have a negative base.
-/

namespace DesignSystem.Workspace
set_option autoImplicit false

/-- The rules that are read come from the items of the file, in order. Values can be divided by the
base of each rule whose item does not have it under another name only. -/
theorem rules_divisible (workspace : Workspace) (disk : Disk) (platform : String)
    (rules : PlatformRules) (reads : workspace.read disk (.platform platform) = .ok rules) :
    ∃ (slot : Slot PlatformRules) (fields : Fields) (items : List Json),
      workspace.slot (.platform platform) = .ok slot ∧ slot.load disk = .ok (.object fields) ∧
      fields.get? "rules" = some (.array items) ∧
      List.Forall₂ (fun rule item => ∃ part : Fields, item = .object part ∧
        (¬ part.StandsIn "rem_base" "remBase" → rule.Divisible)) rules.rules items := by
  cases found : workspace.slot (.platform platform) with
  | error abort => simp [read, found] at reads
  | ok slot =>
    simp only [read, found] at reads
    obtain ⟨document, loads, builds⟩ := Outcome.bind_eq_ok reads
    have builds := Slot.build_eq_ok.mp builds
    rw [slot_schema found] at builds
    obtain ⟨accepted, decodes⟩ := Schema.build_eq_ok builds
    have shape := (Check.platformRules_decides document).mp (Schema.accepts_guarded accepted)
    obtain ⟨fields, items, rfl, listed, origins⟩ := PlatformRules.origin decodes shape
    refine ⟨slot, fields, items, rfl, loads, listed, origins.imp ?_⟩
    rintro rule _ ⟨part, rfl, partShape, place, decoded⟩
    exact ⟨part, rfl, PlatformRule.divisible_of_decode decoded partShape⟩

/-- A disk with one rule for the web, which has its base under a name. -/
def baseDisk (name : String) (base : Int) : Disk := ⟨[("library", .directory [("tokens",
  .directory [("platform.web.json", .file (Slot.bytes (.object [("$platform", .string "web"),
    ("rules", .array [.object [("category", .string "fontSize"), ("transform", .string "rem"),
      (name, .int base)]])])))])])]⟩

/-- The bases of the rules that are read for the web. -/
def webBases (disk : Disk) : Option (List (Option Number)) :=
  match Workspace.read ⟨.ofText "library"⟩ disk (.platform "web") with
  | .ok (rules : PlatformRules) => some (rules.rules.map PlatformRule.remBase)
  | _ => none

theorem webBases_eq_some {disk : Disk} {bases : List (Option Number)}
    (h : webBases disk = some bases) : ∃ rules : PlatformRules,
      Workspace.read ⟨.ofText "library"⟩ disk (.platform "web") = .ok rules ∧
      rules.rules.map PlatformRule.remBase = bases := by
  unfold webBases at h
  split at h
  · next rules reads =>
    cases h
    exact ⟨rules, reads, rfl⟩
  · cases h

theorem webBases_baseDisk :
    webBases (baseDisk "remBase" 10) = some [some (.int 10)] ∧
    webBases (baseDisk "rem_base" (-1)) = some [some (.int (-1))] := by
  decide +kernel

theorem rules_divisible_web : ∃ rules : PlatformRules,
    Workspace.read ⟨.ofText "library"⟩ (baseDisk "remBase" 10) (.platform "web") = .ok rules ∧
    rules.rules.map PlatformRule.remBase = [some (.int 10)] ∧
    ∃ (slot : Slot PlatformRules) (fields : Fields) (items : List Json),
      Workspace.slot ⟨.ofText "library"⟩ (.platform "web") = .ok slot ∧
      slot.load (baseDisk "remBase" 10) = .ok (.object fields) ∧
      fields.get? "rules" = some (.array items) ∧
      List.Forall₂ (fun rule item => ∃ part : Fields, item = .object part ∧
        (¬ part.StandsIn "rem_base" "remBase" → rule.Divisible)) rules.rules items := by
  obtain ⟨rules, reads, bases⟩ := webBases_eq_some webBases_baseDisk.1
  exact ⟨rules, reads, bases, rules_divisible _ _ _ rules reads⟩

/-- Under the other name the base is not checked. -/
theorem rules_divisible_negative : ∃ rules : PlatformRules,
    Workspace.read ⟨.ofText "library"⟩ (baseDisk "rem_base" (-1)) (.platform "web") = .ok rules ∧
    ∃ rule ∈ rules.rules, rule.remBase = some (.int (-1)) ∧ ¬ rule.Divisible := by
  obtain ⟨rules, reads, bases⟩ := webBases_eq_some webBases_baseDisk.2
  refine ⟨rules, reads, ?_⟩
  obtain ⟨rule, rest, whole, base, -⟩ := List.map_eq_cons_iff.mp bases
  refine ⟨rule, by simp [whole], base, fun divisible => ?_⟩
  exact absurd (divisible _ base).2 (by norm_num [Number.value])

end DesignSystem.Workspace
