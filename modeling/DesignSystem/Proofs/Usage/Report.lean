import DesignSystem.Proofs.Check.Totality
import DesignSystem.Proofs.Json.Pointer
import DesignSystem.Proofs.Usage
import Mathlib.Data.List.Nodup

/-! # What the check of a usage reports

* `Collects`: a list with one item for each member of another list that has one, in its order.
* `Usage.Missing`, `Usage.Flawed`: the issue of a required prop that is not supplied, and of a
  supplied prop that is not declared or whose value its definition does not admit.
* `Usage.check_issues`: a report consists of these issues, at different places; it is valid for
  exactly the usages that fit.
-/

namespace DesignSystem
set_option autoImplicit false

/-! ## Lists of findings -/

section
variable {α β : Type} {finds : α → β → Prop}

/-- A list of what is found at the members of another list: at most one item for each of them, and
none only where there is nothing to be found. -/
inductive Collects (finds : α → β → Prop) : List α → List β → Prop where
  | nil : Collects finds [] []
  | found {a : α} {b : β} {as : List α} {bs : List β} (here : finds a b)
      (rest : Collects finds as bs) : Collects finds (a :: as) (b :: bs)
  | passed {a : α} {as : List α} {bs : List β} (nothing : ∀ b, ¬ finds a b)
      (rest : Collects finds as bs) : Collects finds (a :: as) bs

namespace Collects

/-- A search that gives the item of a member, if it has one, collects all of them. -/
theorem of_flatMap {search : α → List β}
    (exact : ∀ a, (∃ b, search a = [b] ∧ finds a b) ∨ search a = [] ∧ ∀ b, ¬ finds a b)
    (as : List α) : Collects finds as (as.flatMap search) := by
  induction as with
  | nil => exact .nil
  | cons a as ih =>
    rw [List.flatMap_cons]
    rcases exact a with ⟨b, gives, here⟩ | ⟨gives, nothing⟩
    · rw [gives]
      exact .found here ih
    · rw [gives]
      exact .passed nothing ih

theorem exists_of_mem {as : List α} {bs : List β} (collects : Collects finds as bs) :
    ∀ b ∈ bs, ∃ a ∈ as, finds a b := by
  induction collects with
  | nil => simp
  | found here _ ih =>
    rw [List.forall_mem_cons]
    refine ⟨⟨_, List.mem_cons_self, here⟩, fun b mem => ?_⟩
    obtain ⟨a, listed, finds⟩ := ih b mem
    exact ⟨a, List.mem_cons_of_mem _ listed, finds⟩
  | passed _ _ ih =>
    intro b mem
    obtain ⟨a, listed, finds⟩ := ih b mem
    exact ⟨a, List.mem_cons_of_mem _ listed, finds⟩

/-- Items that tell which member they are found at follow the order of the members. -/
theorem sublist {γ : Type} {as : List α} {bs : List β} (collects : Collects finds as bs)
    (tell : β → γ) (place : α → γ) (tells : ∀ a b, finds a b → tell b = place a) :
    (bs.map tell).Sublist (as.map place) := by
  induction collects with
  | nil => exact .slnil
  | found here _ ih =>
    rw [List.map_cons, List.map_cons, tells _ _ here]
    exact ih.cons_cons _
  | passed _ _ ih => exact ih.cons _

end Collects
end

namespace Usage

/-! ## The issues of a usage -/

/-- The text of the place of a prop in a usage. -/
def placeOf (name : String) : String := Pointer.text [.field name]

theorem placeOf_injective : Function.Injective placeOf := by
  intro name other same
  have tokens := congrArg Pointer.tokens? same
  rw [placeOf, placeOf, Pointer.tokens?_text (by simp), Pointer.tokens?_text (by simp)] at tokens
  simpa [Step.spelling] using tokens

/-- The issue of a required prop. -/
inductive Missing (supplied : Fields) : String → Issue → Prop where
  | prop {name : String} (absent : supplied.get? name = none) :
      Missing supplied name ⟨.pointer [.field name], s!"Required prop missing: {name}",
        "required_prop_missing", none⟩

/-- The issue of a supplied prop. -/
inductive Flawed (contract : ComponentContract) : String × Json → Issue → Prop where
  | unknown {name : String} {value : Json} (undeclared : contract.props.find? name = none) :
      Flawed contract (name, value) ⟨.pointer [.field name], s!"Unknown prop: {name}",
        "unknown_prop", none⟩
  | word {name : String} {value : Json} {prop : PropDefinition}
      (declared : contract.props.find? name = some prop) (listed : prop.type = .enum)
      (refused : ¬ prop.Admits value) :
      Flawed contract (name, value) ⟨.pointer [.field name],
        "Invalid enum value. Expected one of: " ++
          Text.intercalate ", " (prop.values.getD []),
        "invalid_enum_value", Issue.reported value⟩
  | type {name : String} {value : Json} {prop : PropDefinition}
      (declared : contract.props.find? name = some prop) (typed : prop.type ≠ .enum)
      (refused : ¬ prop.Admits value) :
      Flawed contract (name, value) ⟨.pointer [.field name],
        s!"Expected {Vocabulary.word prop.type}, got {value.kind}", "type_mismatch",
        Issue.reported value⟩

variable {contract : ComponentContract} {supplied : Fields}

theorem Missing.place {name : String} {issue : Issue} (missing : Missing supplied name issue) :
    issue.place.text = placeOf name := by
  cases missing
  rfl

theorem Flawed.place {prop : String × Json} {issue : Issue} (flawed : Flawed contract prop issue) :
    issue.place.text = placeOf prop.1 := by
  cases flawed <;> rfl

/-! ## What is found -/

theorem missing_collects :
    Collects (Missing supplied) contract.requiredProps (missing contract supplied) := by
  have search : missing contract supplied = contract.requiredProps.flatMap fun name =>
      if supplied.has name then [] else [(UsageFlaw.missingProp name).issue [.field name]] := by
    rw [missing]
    induction contract.requiredProps with
    | nil => rfl
    | cons name names ih => by_cases given : supplied.has name = true <;> simp [given, ih]
  rw [search]
  refine .of_flatMap (fun name => ?_) _
  cases given : supplied.get? name with
  | none =>
    exact .inl ⟨(UsageFlaw.missingProp name).issue [.field name], by simp [Fields.has, given],
      .prop given⟩
  | some value =>
    refine .inr ⟨by simp [Fields.has, given], fun issue missing => ?_⟩
    cases missing with
    | prop absent => simp [given] at absent

/-- A value that does not conform has one flaw, by the type of the prop. -/
theorem flawed_of_mismatch {name : String} {value : Json} {prop : PropDefinition}
    (declared : contract.props.find? name = some prop) (refused : ¬ prop.Admits value) :
    Flawed contract (name, value) ((mismatch prop value).issue [.field name]) := by
  cases type : prop.type with
  | «enum» =>
    simp only [mismatch, type]
    exact .word declared type refused
  | _ =>
    simp only [mismatch, type]
    rw [← type]
    exact .type declared (by simp [type]) refused

theorem suppliedIssues_collects : Collects (Flawed contract) supplied
    (supplied.flatMap fun prop => suppliedIssues contract prop.1 prop.2) := by
  refine .of_flatMap (fun prop => ?_) supplied
  obtain ⟨name, value⟩ := prop
  cases declared : contract.props.find? name with
  | none =>
    exact .inl ⟨(UsageFlaw.unknownProp name).issue [.field name],
      by simp only [suppliedIssues, declared], .unknown declared⟩
  | some definition =>
    by_cases conformed : conforms definition value = true
    · have admitted := conforms_iff.mp conformed
      refine .inr ⟨by simp only [suppliedIssues, declared, conformed, if_true], ?_⟩
      intro issue flawed
      cases flawed with
      | unknown undeclared => simp [declared] at undeclared
      | word other _ refused | type other _ refused =>
        rw [declared, Option.some.injEq] at other
        exact refused (other ▸ admitted)
    · refine .inl ⟨_, by simp only [suppliedIssues, declared, conformed]; rfl, ?_⟩
      exact flawed_of_mismatch declared fun admitted => conformed (conforms_iff.mpr admitted)

/-! ## The places of issues -/

/-- What is missing is not supplied, so no two issues are at one place. -/
theorem places_nodup {missing flawed : List Issue} (distinct : (supplied.map Prod.fst).Nodup)
    (lacks : Collects (Missing supplied) contract.requiredProps missing)
    (flaws : Collects (Flawed contract) supplied flawed) :
    ((missing ++ flawed).map fun issue => issue.place.text).Nodup := by
  have required : contract.requiredProps.Nodup :=
    contract.props.distinct.sublist (List.filter_sublist.map Prod.fst)
  have names : (supplied.map fun prop => placeOf prop.1).Nodup := by
    have places := distinct.map placeOf_injective
    rwa [List.map_map] at places
  have first := lacks.sublist (fun issue => issue.place.text) placeOf
    fun _ _ missing => missing.place
  have second := flaws.sublist (fun issue => issue.place.text) (fun prop => placeOf prop.1)
    fun _ _ flawed => flawed.place
  rw [List.map_append, List.nodup_append]
  refine ⟨(required.map placeOf_injective).sublist first, names.sublist second, ?_⟩
  intro place here other there same
  obtain ⟨issue, listed, rfl⟩ := List.mem_map.mp here
  obtain ⟨flaw, found, rfl⟩ := List.mem_map.mp there
  obtain ⟨name, -, missing⟩ := lacks.exists_of_mem issue listed
  obtain ⟨prop, given, flawed⟩ := flaws.exists_of_mem flaw found
  rw [missing.place, flawed.place] at same
  cases missing with
  | prop absent =>
    have known : supplied.get? prop.1 = some prop.2 := lookup_of_mem distinct given
    rw [← placeOf_injective same, absent] at known
    cases known

/-! ## The check -/

theorem oversized_of_inRange (inRange : ∀ prop ∈ supplied, ¬ prop.2.IsBeyondRange) :
    oversized contract supplied = false := by
  rw [oversized, List.any_eq_false]
  intro prop mem
  have small : prop.2.isOversized = false :=
    Bool.eq_false_iff.mpr fun large => inRange prop mem (Json.isOversized_iff.mp large)
  cases contract.props.find? prop.1 <;> simp [small]

/-- If no supplied integer is beyond the range of binary64, the check of a usage returns the issues
of the required props, in the order of the contract, and then those of the supplied props, in their
order. They are at different places, and there are none iff the usage fits. -/
theorem check_issues (distinct : (supplied.map Prod.fst).Nodup)
    (inRange : ∀ prop ∈ supplied, ¬ prop.2.IsBeyondRange) :
    ∃ missing flawed, check contract (.object supplied) = .ok ⟨missing ++ flawed⟩ ∧
      Collects (Missing supplied) contract.requiredProps missing ∧
      Collects (Flawed contract) supplied flawed ∧
      ((missing ++ flawed).map fun issue => issue.place.text).Nodup ∧
      ((Report.mk (missing ++ flawed)).valid = true ↔ contract.Fits supplied) := by
  refine ⟨missing contract supplied, _, ?_, missing_collects, suppliedIssues_collects,
    places_nodup distinct missing_collects suppliedIssues_collects, ?_⟩
  · simp only [check, oversized_of_inRange inRange]
    rfl
  · rw [Report.valid, List.isEmpty_iff]
    exact issues_eq_nil

/-- A component with a required prop, an enum prop and a prop whose name is escaped in places. -/
def sizedContract : ComponentContract where
  schema := none
  version := none
  name := "Card"
  description := none
  platformTargets := [.web]
  props := .ofList [("label", ⟨.string, none, none, some true, none, []⟩),
    ("size", ⟨.enum, some ["sm", "lg"], none, none, none, []⟩),
    ("w/h", ⟨.number, none, none, some true, none, []⟩)]
  variants := none
  states := none
  code := none
  examples := none

/-- A usage with a flaw of each kind. -/
def flawedProps : Fields :=
  [("w/h", .bool true), ("color", .string "red"), ("size", .int 2)]

theorem check_issues_flawed :
    (flawedProps.map Prod.fst).Nodup ∧ (∀ prop ∈ flawedProps, ¬ prop.2.IsBeyondRange) ∧
    ∃ missing flawed, check sizedContract (.object flawedProps) = .ok ⟨missing ++ flawed⟩ ∧
      Collects (Missing flawedProps) sizedContract.requiredProps missing ∧
      Collects (Flawed sizedContract) flawedProps flawed ∧
      (missing ++ flawed).map (fun issue => (issue.place.text, issue.code)) =
        [("/label", "required_prop_missing"), ("/w~1h", "type_mismatch"),
          ("/color", "unknown_prop"), ("/size", "invalid_enum_value")] := by
  have distinct : (flawedProps.map Prod.fst).Nodup := by decide
  have small : ∀ prop ∈ flawedProps, prop.2.isOversized = false := by decide +kernel
  have inRange : ∀ prop ∈ flawedProps, ¬ prop.2.IsBeyondRange := fun prop mem large => by
    simpa [small prop mem] using Json.isOversized_iff.mpr large
  have answer : (check sizedContract (.object flawedProps)).map (fun report =>
      report.issues.map fun issue => (issue.place.text, issue.code)) =
        .ok [("/label", "required_prop_missing"), ("/w~1h", "type_mismatch"),
          ("/color", "unknown_prop"), ("/size", "invalid_enum_value")] := by
    decide +kernel
  obtain ⟨missing, flawed, checks, lacks, flaws, -⟩ :=
    @check_issues sizedContract flawedProps distinct inRange
  rw [checks] at answer
  exact ⟨distinct, inRange, missing, flawed, checks, lacks, flaws, Except.ok.inj answer⟩

end Usage
end DesignSystem
