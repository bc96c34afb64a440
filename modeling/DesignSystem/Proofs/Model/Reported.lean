import DesignSystem.Proofs.Check.Reported
import DesignSystem.Proofs.Model.Origin

/-! # What decoding passes on

Decoding ends with a model, whose free parts are parts of the document, or with issues that report
parts of it. Either way, what the document passes on to its parts is found in the result.

* `Decoded.Ends`: how decoding ends, with a good value or with issues that report what holds.
* `Decoded.Decodes`, `Decoded.DecodesInside`: decoding of all documents with a property ends so.
* `PropDefinition.Carries`, …: the free parts of a model have a property.
* `ComponentContract.decode_ends`, `CoreTokens.decode_ends`, …: the models.
-/

namespace DesignSystem
set_option autoImplicit false

theorem Mismatch.issue_reports {holds : Json → Prop} {found : Json} (h : holds found)
    (mismatch : Mismatch) (pointer : Pointer) : (mismatch.issue pointer found).Reports holds := by
  intro value reported
  rw [Issue.reported_eq_some reported]
  exact h

namespace Decoded
variable {α β ι : Type} {holds : Json → Prop} {good : α → Prop} {result : β → Prop}

/-- Decoding ends with a good value, or with issues, one at least, whose values have a property. -/
def Ends (holds : Json → Prop) (good : α → Prop) : Decoded α → Prop
  | ok value => good value
  | rejected issues => issues ≠ [] ∧ ∀ issue ∈ issues, issue.Reports holds

/-! ## Combined parts -/

theorem Ends.map {decoded : Decoded α} (ends : decoded.Ends holds good) {f : α → β}
    (h : ∀ value, good value → result (f value)) : (decoded.map f).Ends holds result := by
  cases decoded with
  | ok value => exact h value ends
  | rejected issues => exact ends

theorem Ends.seq {build : Decoded (α → β)} {decoded : Decoded α}
    (first : build.Ends holds fun f => ∀ value, good value → result (f value))
    (second : decoded.Ends holds good) : (build <*> decoded).Ends holds result := by
  cases build with
  | ok f =>
    cases decoded with
    | ok value => exact first value second
    | rejected issues => exact second
  | rejected issues =>
    cases decoded with
    | ok value => exact first
    | rejected others =>
      exact ⟨List.append_ne_nil_of_left_ne_nil first.1 others,
        List.forall_mem_append.mpr ⟨first.2, second.2⟩⟩

theorem Ends.functor_map {decoded : Decoded α} (ends : decoded.Ends holds good) {f : α → β}
    (h : ∀ value, good value → result (f value)) : (f <$> decoded).Ends holds result := by
  cases decoded with
  | ok value => exact h value ends
  | rejected issues => exact ends

theorem Ends.mono {decoded : Decoded α} (ends : decoded.Ends holds good) {weaker : α → Prop}
    (h : ∀ value, good value → weaker value) : decoded.Ends holds weaker := by
  cases decoded with
  | ok value => exact h value ends
  | rejected issues => exact ends

theorem mismatch_ends {found : Json} (h : holds found) (kind : Mismatch) (pointer : Pointer) :
    (mismatch kind pointer found : Decoded α).Ends holds good :=
  ⟨List.cons_ne_nil _ _, List.forall_mem_singleton.mpr (kind.issue_reports h pointer)⟩

theorem all_ends {decode : ι → Decoded α} {items : List ι}
    (each : ∀ item ∈ items, (decode item).Ends holds good) :
    (all (items.map decode)).Ends holds fun values => ∀ value ∈ values, good value := by
  induction items with
  | nil => exact fun value mem => by cases mem
  | cons item items ih =>
    obtain ⟨first, others⟩ := List.forall_mem_cons.mp each
    have head : ((decode item).map List.cons).Ends holds fun build =>
        ∀ values, (∀ value ∈ values, good value) → ∀ value ∈ build values, good value :=
      first.map fun value here values there => List.forall_mem_cons.mpr ⟨here, there⟩
    exact head.seq (ih others)

/-! ## Parts -/

/-- Decoding ends so for all documents with a property. -/
def Decodes (holds : Json → Prop) (part : Pointer → Json → Decoded α) (good : α → Prop) : Prop :=
  ∀ pointer document, holds document → (part pointer document).Ends holds good

theorem string_decodes : Decodes holds string fun _ => True := by
  intro pointer document h
  unfold string
  split
  · trivial
  · exact mismatch_ends h _ _

theorem member_decodes (α : Type) [Vocabulary α] : Decodes holds (member α) fun _ => True := by
  intro pointer document h
  unfold member
  split
  · split
    · exact mismatch_ends h _ _
    split
    · trivial
    · exact mismatch_ends h _ _
  · exact mismatch_ends h _ _

theorem boolean_decodes : Decodes holds boolean fun _ => True := by
  intro pointer document h
  unfold boolean
  split
  · trivial
  · split
    · trivial
    · exact mismatch_ends h _ _
  · split
    · trivial
    · trivial
    · exact mismatch_ends h _ _
    · exact mismatch_ends h _ _
  · exact mismatch_ends h _ _

theorem number_decodes : Decodes holds number fun _ => True := by
  intro pointer document h
  have fails (integer float : Mismatch) :
      (rejected [integer.issue (pointer ++ [.field "int"]) document,
        float.issue (pointer ++ [.field "float"]) document] : Decoded Number).Ends holds
        fun _ => True := by
    refine ⟨List.cons_ne_nil _ _, fun issue mem => ?_⟩
    rcases List.mem_pair.mp mem with rfl | rfl
    · exact integer.issue_reports h _
    · exact float.issue_reports h _
  dsimp only [number]
  split
  · trivial
  · trivial
  · split
    · trivial
    · exact fails _ _
  · exact fails _ _

theorem tokenValue_decodes : Decodes holds TokenValue.decode fun _ => True := by
  intro pointer document h
  unfold TokenValue.decode
  split
  · trivial
  · trivial
  · trivial
  · refine ⟨List.cons_ne_nil _ _, fun issue mem => ?_⟩
    simp only [List.mem_cons, List.not_mem_nil, or_false] at mem
    rcases mem with rfl | rfl | rfl <;> exact Mismatch.issue_reports h _ _

theorem any_decodes : Decodes holds any holds := fun _ _ h => h

theorem anyObject_decodes : Decodes holds anyObject fun fields => holds (.object fields) := by
  intro pointer document h
  unfold anyObject
  split
  · exact h
  · exact mismatch_ends h _ _

/-! ## Containers -/

section
variable {part : Pointer → Json → Decoded α} (hereditary : Json.Hereditary holds)

include hereditary

theorem Decodes.array (decodes : Decodes holds part good) :
    Decodes holds (array part) fun values => ∀ value ∈ values, good value := by
  intro pointer document h
  cases document with
  | array items =>
    refine all_ends fun placed mem => decodes _ _ ?_
    exact hereditary.item h _ (List.mem_of_getElem? (List.mem_zipIdx_iff_getElem?.mp mem))
  | _ => exact mismatch_ends h _ _

theorem Decodes.dict (decodes : Decodes holds part good) :
    Decodes holds (dict part) fun values => ∀ entry ∈ values.entries, good entry.2 := by
  intro pointer document h
  cases document with
  | object fields =>
    have each : ∀ field ∈ fields, ((part (pointer ++ [.field field.1]) field.2).map
        (field.1, ·)).Ends holds fun entry => good entry.2 := fun field mem =>
      (decodes _ _ (hereditary.field h field mem)).map fun value here => here
    exact (all_ends each).map fun entries each entry mem => each entry (mem_collect mem)
  | _ => exact mismatch_ends h _ _

/-! ## Fields -/

/-- Decoding of the fields of all objects with a property ends so. -/
def DecodesInside (holds : Json → Prop) (inside : Pointer → Fields → Decoded α)
    (good : Fields → α → Prop) : Prop :=
  ∀ pointer fields, holds (.object fields) → (inside pointer fields).Ends holds (good fields)

omit hereditary in
theorem DecodesInside.model {inside : Pointer → Fields → Decoded α} {good : Fields → α → Prop}
    (decodes : DecodesInside holds inside good) (name : String) :
    Decodes holds (model name inside) fun value => ∃ fields, holds (.object fields) ∧
      good fields value := by
  intro pointer document h
  cases document with
  | object fields =>
    exact (decodes pointer fields h).mono fun value here => ⟨fields, h, here⟩
  | _ => exact mismatch_ends h _ _

omit hereditary in
theorem DecodesInside.model_trivial {inside : Pointer → Fields → Decoded α}
    (decodes : DecodesInside holds inside fun _ _ => True) (name : String) :
    Decodes holds (Decoded.model name inside) fun _ => True := by
  intro pointer document h
  exact (decodes.model name pointer document h).mono fun _ _ => trivial

theorem holds_of_find? {names : List String} {fields : Fields} {found : String × Json}
    (h : holds (.object fields)) (finds : find? names fields = some found) : holds found.2 := by
  obtain ⟨name, -, here⟩ := List.exists_of_findSome?_eq_some finds
  obtain ⟨document, present, rfl⟩ := Option.map_eq_some_iff.mp here
  exact hereditary.get? h present

theorem Decodes.required (decodes : Decodes holds part good) (names : List String) :
    DecodesInside holds (required names part) fun _ => good := by
  intro pointer fields h
  unfold Decoded.required
  split
  · next finds => exact decodes _ _ (holds_of_find? hereditary h finds)
  · refine ⟨List.cons_ne_nil _ _, List.forall_mem_singleton.mpr fun value reported => ?_⟩
    cases reported

theorem Decodes.optional (decodes : Decodes holds part good) (names : List String) :
    DecodesInside holds (optional names part) fun _ value => ∀ part, value = some part →
      good part := by
  intro pointer fields h
  unfold Decoded.optional
  split
  · exact fun part e => by cases e
  · exact fun part e => by cases e
  · next finds =>
    refine (decodes _ _ (holds_of_find? hereditary h finds)).map fun value here part e => ?_
    cases e
    exact here

theorem Decodes.defaulted (decodes : Decodes holds part good) (names : List String) {default : α}
    (fits : good default) : DecodesInside holds (defaulted names default part) fun _ => good := by
  intro pointer fields h
  unfold Decoded.defaulted
  split
  · next finds => exact decodes _ _ (holds_of_find? hereditary h finds)
  · exact fits

omit hereditary in
theorem remaining_decodes (declared : List (List String)) :
    DecodesInside holds (remaining declared) fun fields extras =>
      extras = Decoded.extras declared fields :=
  fun _ _ _ => rfl

end
end Decoded

/-! ## Free parts of contracts -/

/-- The extra fields of a model are those of a document with a property. -/
def Decoded.Leaves (holds : Json → Prop) (declared : List (List String)) (extras : Fields) : Prop :=
  ∃ fields, holds (.object fields) ∧ extras = Decoded.extras declared fields

structure PropDefinition.Carries (holds : Json → Prop) (prop : PropDefinition) : Prop where
  default : ∀ document, prop.default = some document → holds document
  extras : Decoded.Leaves holds declared prop.extras

structure VariantDefinition.Carries (holds : Json → Prop) (variant : VariantDefinition) : Prop where
  props : holds (.object variant.props)
  extras : Decoded.Leaves holds declared variant.extras

structure ComponentExample.Carries (holds : Json → Prop) (e : ComponentExample) : Prop where
  props : holds (.object e.props)
  extras : Decoded.Leaves holds declared e.extras

structure ComponentContract.Carries (holds : Json → Prop) (contract : ComponentContract) :
    Prop where
  props : ∀ entry ∈ contract.props.entries, entry.2.Carries holds
  variants : ∀ variant ∈ contract.variants.getD [], variant.Carries holds
  states : ∀ state ∈ contract.states.getD [],
    Decoded.Leaves holds StateDefinition.declared state.extras
  code : ∀ code, contract.code = some code → Decoded.Leaves holds CodeReference.declared code.extras
  examples : ∀ e ∈ contract.examples.getD [], e.Carries holds

/-! ## Models -/

section
open Decoded
variable {holds : Json → Prop} (hereditary : Json.Hereditary holds)

include hereditary

theorem CoreToken.decode_decodes : Decodes holds decode fun _ => True := by
  refine DecodesInside.model_trivial (fun pointer fields h => ?_) _
  exact Ends.seq (Ends.seq (Ends.functor_map
    (tokenValue_decodes.required hereditary _ pointer fields h) fun _ _ _ _ _ _ => trivial)
    ((member_decodes Category).optional hereditary _ pointer fields h))
    (string_decodes.optional hereditary _ pointer fields h)

theorem CoreTokens.decode_ends {document : Json} (h : holds document) :
    (decode document).Ends holds fun _ => True := by
  refine DecodesInside.model_trivial (fun pointer fields h => ?_) _ [] document h
  exact Ends.seq (Ends.seq (Ends.functor_map
    (string_decodes.optional hereditary _ pointer fields h) fun _ _ _ _ _ _ => trivial)
    (string_decodes.optional hereditary _ pointer fields h))
    (((CoreToken.decode_decodes hereditary).dict hereditary).defaulted hereditary _
      (fun _ _ => trivial) pointer fields h)

theorem SemanticToken.decode_decodes : Decodes holds decode fun _ => True := by
  refine DecodesInside.model_trivial (fun pointer fields h => ?_) _
  exact Ends.seq (Ends.functor_map
    (string_decodes.required hereditary _ pointer fields h) fun _ _ _ _ => trivial)
    (string_decodes.optional hereditary _ pointer fields h)

theorem SemanticTokens.decode_ends {document : Json} (h : holds document) :
    (decode document).Ends holds fun _ => True := by
  refine DecodesInside.model_trivial (fun pointer fields h => ?_) _ [] document h
  exact Ends.seq (Ends.seq (Ends.seq (Ends.functor_map
    (string_decodes.optional hereditary _ pointer fields h) fun _ _ _ _ _ _ _ _ => trivial)
    (string_decodes.optional hereditary _ pointer fields h))
    ((member_decodes Theme).required hereditary _ pointer fields h))
    (((SemanticToken.decode_decodes hereditary).dict hereditary).defaulted hereditary _
      (fun _ _ => trivial) pointer fields h)

theorem PlatformRule.decode_decodes : Decodes holds decode fun _ => True := by
  refine DecodesInside.model_trivial (fun pointer fields h => ?_) _
  exact Ends.seq (Ends.seq (Ends.functor_map
    (string_decodes.required hereditary _ pointer fields h) fun _ _ _ _ _ _ => trivial)
    ((member_decodes Transform).required hereditary _ pointer fields h))
    (number_decodes.optional hereditary _ pointer fields h)

theorem PlatformRules.decode_ends {document : Json} (h : holds document) :
    (decode document).Ends holds fun _ => True := by
  refine DecodesInside.model_trivial (fun pointer fields h => ?_) _ [] document h
  exact Ends.seq (Ends.seq (Ends.seq (Ends.functor_map
    (string_decodes.optional hereditary _ pointer fields h) fun _ _ _ _ _ _ _ _ => trivial)
    (string_decodes.optional hereditary _ pointer fields h))
    ((member_decodes Platform).required hereditary _ pointer fields h))
    (((PlatformRule.decode_decodes hereditary).array hereditary).defaulted hereditary _
      (fun _ _ => trivial) pointer fields h)

theorem ComponentSource.decode_decodes : Decodes holds decode fun _ => True := by
  refine DecodesInside.model_trivial (fun pointer fields h => ?_) _
  exact Ends.seq (Ends.functor_map
    ((member_decodes SourceType).required hereditary _ pointer fields h) fun _ _ _ _ => trivial)
    (string_decodes.required hereditary _ pointer fields h)

theorem SystemManifest.decode_ends {document : Json} (h : holds document) :
    (decode document).Ends holds fun _ => True := by
  refine DecodesInside.model_trivial (fun pointer fields h => ?_) _ [] document h
  exact Ends.seq (Ends.seq (Ends.seq (Ends.seq (Ends.seq (Ends.seq (Ends.seq (Ends.functor_map
    (string_decodes.optional hereditary _ pointer fields h)
      fun _ _ _ _ _ _ _ _ _ _ _ _ _ _ _ _ => trivial)
    (string_decodes.required hereditary _ pointer fields h))
    (string_decodes.required hereditary _ pointer fields h))
    (string_decodes.optional hereditary _ pointer fields h))
    ((ComponentSource.decode_decodes hereditary).optional hereditary _ pointer fields h))
    ((member_decodes Platform).optional hereditary _ pointer fields h))
    ((member_decodes Theme).optional hereditary _ pointer fields h))
    (remaining_decodes _ pointer fields h)

theorem PropDefinition.decode_decodes : Decodes holds decode (Carries holds) := by
  intro pointer document h
  refine (DecodesInside.model (fun pointer fields h => ?_) _ pointer document h).mono
    fun prop ⟨_, _, carries⟩ => carries
  exact Ends.seq (Ends.seq (Ends.seq (Ends.seq (Ends.seq (Ends.functor_map
    ((member_decodes PropType).required hereditary _ pointer fields h)
      fun _ _ _ _ _ default _ _ _ _ _ extras => ⟨default, fields, h, extras⟩)
    ((string_decodes.array hereditary).optional hereditary _ pointer fields h))
    (any_decodes.optional hereditary _ pointer fields h))
    (boolean_decodes.optional hereditary _ pointer fields h))
    (string_decodes.optional hereditary _ pointer fields h))
    (remaining_decodes _ pointer fields h)

theorem VariantDefinition.decode_decodes : Decodes holds decode (Carries holds) := by
  intro pointer document h
  refine (DecodesInside.model (fun pointer fields h => ?_) _ pointer document h).mono
    fun variant ⟨_, _, carries⟩ => carries
  exact Ends.seq (Ends.seq (Ends.seq (Ends.functor_map
    (string_decodes.required hereditary _ pointer fields h)
      fun _ _ _ _ _ props _ extras => ⟨props, fields, h, extras⟩)
    (string_decodes.optional hereditary _ pointer fields h))
    (anyObject_decodes.defaulted hereditary _ hereditary.empty pointer fields h))
    (remaining_decodes _ pointer fields h)

theorem StateDefinition.decode_decodes :
    Decodes holds decode fun state => Decoded.Leaves holds declared state.extras := by
  intro pointer document h
  refine (DecodesInside.model (fun pointer fields h => ?_) _ pointer document h).mono
    fun state ⟨_, _, carries⟩ => carries
  exact Ends.seq (Ends.seq (Ends.functor_map
    (string_decodes.required hereditary _ pointer fields h)
      fun _ _ _ _ _ extras => ⟨fields, h, extras⟩)
    (string_decodes.optional hereditary _ pointer fields h))
    (remaining_decodes _ pointer fields h)

theorem CodeReference.decode_decodes :
    Decodes holds decode fun code => Decoded.Leaves holds declared code.extras := by
  intro pointer document h
  refine (DecodesInside.model (fun pointer fields h => ?_) _ pointer document h).mono
    fun code ⟨_, _, carries⟩ => carries
  exact Ends.seq (Ends.seq (Ends.functor_map
    (string_decodes.required hereditary _ pointer fields h)
      fun _ _ _ _ _ extras => ⟨fields, h, extras⟩)
    (string_decodes.optional hereditary _ pointer fields h))
    (remaining_decodes _ pointer fields h)

theorem ComponentExample.decode_decodes : Decodes holds decode (Carries holds) := by
  intro pointer document h
  refine (DecodesInside.model (fun pointer fields h => ?_) _ pointer document h).mono
    fun e ⟨_, _, carries⟩ => carries
  exact Ends.seq (Ends.seq (Ends.seq (Ends.functor_map
    (string_decodes.optional hereditary _ pointer fields h)
      fun _ _ _ _ _ props _ extras => ⟨props, fields, h, extras⟩)
    (string_decodes.optional hereditary _ pointer fields h))
    (anyObject_decodes.defaulted hereditary _ hereditary.empty pointer fields h))
    (remaining_decodes _ pointer fields h)

theorem ComponentContract.decode_ends {document : Json} (h : holds document) :
    (decode document).Ends holds (Carries holds) := by
  refine (DecodesInside.model (fun pointer fields h => ?_) _ [] document h).mono
    fun contract ⟨_, _, carries⟩ => carries
  have listed {α : Type} {kept : α → Prop} {parts : Option (List α)}
      (each : ∀ found, parts = some found → ∀ part ∈ found, kept part) :
      ∀ part ∈ parts.getD [], kept part := by
    cases parts with
    | none => exact fun part mem => by cases mem
    | some found => exact each found rfl
  exact Ends.seq (Ends.seq (Ends.seq (Ends.seq (Ends.seq (Ends.seq (Ends.seq (Ends.seq (Ends.seq
    (Ends.functor_map (string_decodes.optional hereditary _ pointer fields h)
      fun _ _ _ _ _ _ _ _ _ _ _ props _ variants _ states _ code _ examples =>
        ⟨props, listed variants, listed states, code, listed examples⟩)
    (string_decodes.optional hereditary _ pointer fields h))
    (string_decodes.required hereditary _ pointer fields h))
    (string_decodes.optional hereditary _ pointer fields h))
    (((member_decodes Platform).array hereditary).required hereditary _ pointer fields h))
    (((PropDefinition.decode_decodes hereditary).dict hereditary).defaulted hereditary _
      (fun _ mem => by cases mem) pointer fields h))
    (((VariantDefinition.decode_decodes hereditary).array hereditary).optional hereditary _
      pointer fields h))
    (((StateDefinition.decode_decodes hereditary).array hereditary).optional hereditary _
      pointer fields h))
    ((CodeReference.decode_decodes hereditary).optional hereditary _ pointer fields h))
    (((ComponentExample.decode_decodes hereditary).array hereditary).optional hereditary _
      pointer fields h)

end
end DesignSystem
