import DesignSystem.Check.Manifest
import DesignSystem.Check.Tokens
import DesignSystem.Proofs.Check.Shape
import DesignSystem.Proofs.Json.Parts
import DesignSystem.Proofs.Json.Pointer
import DesignSystem.Proofs.Number.Range

/-! # Issues point at their causes

* `Issue.PointsAt`: an issue is located, by a pointer that is read as JSON pointers are, at the part
  that it is about.
* `Check.Points`, `Check.PointsInside`: the issues of a check point at parts of the document that
  the check is in.
* `Check.Points.object`, `Check.Points.optional`, …: composed checks point at parts if those that
  they are composed of do.
* `Check.coreTokens_points`, …: the issues of token layers and of the manifest.
-/

namespace DesignSystem
set_option autoImplicit false

/-! ## Located issues -/

namespace Issue

/-- The codes of issues that are about a field that is not there. -/
def missingCodes : List String := ["required", "required_prop_missing"]

/-- The value reported about a part under a name: the name itself if it should not be there, no
value if the part is right in itself, the part otherwise. -/
def valueOf (code name : String) (part : Json) : Option Json :=
  if code = "additionalProperties" then some (.string name)
  else if code = "enum_missing_values" ∨ code = "unknown_prop" then none
  else reported part

/-- An issue is located at its cause in a document. -/
inductive PointsAt (document : Json) (issue : Issue) : Prop
  /-- The document is no object. -/
  | root (notObject : ∀ fields, document ≠ .object fields) (place : issue.place.text = "/")
      (value : issue.value = reported document)
  /-- A field is not there; the object that lacks it is. -/
  | missing (parent : List String) (name : String) (fields : Fields)
      (read : Pointer.tokens? issue.place.text = some (parent ++ [name]))
      (code : issue.code ∈ missingCodes)
      (leads : Json.follow? parent document = some (.object fields))
      (absent : fields.has name = false)
  /-- A part is there, with the value that the issue reports. -/
  | found (parent : List String) (name : String) (part : Json)
      (read : Pointer.tokens? issue.place.text = some (parent ++ [name]))
      (code : issue.code ∉ missingCodes)
      (leads : Json.follow? (parent ++ [name]) document = some part)
      (value : issue.value = valueOf issue.code name part)

variable {document : Json} {issue : Issue} {pointer : Pointer}

theorem PointsAt.of_absent {name : String} {fields : Fields}
    (resolves : pointer.resolve document = some (.object fields)) (absent : fields.has name = false)
    (place : issue.place = .pointer (pointer ++ [.field name])) (code : issue.code ∈ missingCodes) :
    issue.PointsAt document := by
  refine .missing (pointer.map Step.spelling) name fields ?_ code
    (Pointer.follow?_of_resolve resolves) absent
  rw [place, Place.text, Pointer.tokens?_text (by simp), List.map_append]
  rfl

theorem PointsAt.of_resolve {step : Step} {part : Json}
    (resolves : (pointer ++ [step]).resolve document = some part)
    (place : issue.place = .pointer (pointer ++ [step])) (code : issue.code ∉ missingCodes)
    (value : issue.value = valueOf issue.code step.spelling part) : issue.PointsAt document := by
  refine .found (pointer.map Step.spelling) step.spelling part ?_ code ?_ value
  · rw [place, Place.text, Pointer.tokens?_text (by simp), List.map_append]
    rfl
  · simpa using Pointer.follow?_of_resolve resolves

end Issue

namespace Flaw

/-- The part that a flaw reports. -/
def part? : Flaw → Option Json
  | wrongType _ found | tooFewItems _ found | notAllowed _ found | notComponentName found
  | notPositive found => some found
  | missingField _ | additionalField _ | enumWithoutValues | exampleOfUnknownProp _ => none

variable {document : Json} {pointer : Pointer}

theorem pointsAt_part {flaw : Flaw} {step : Step} {part : Json} (reports : flaw.part? = some part)
    (resolves : (pointer ++ [step]).resolve document = some part) :
    (flaw.issue (pointer ++ [step])).PointsAt document := by
  have codeAndValue : flaw.code ∉ Issue.missingCodes ∧
      flaw.value = Issue.valueOf flaw.code step.spelling part := by
    cases flaw <;> simp_all [part?, code, value, Issue.missingCodes, Issue.valueOf]
  exact .of_resolve resolves rfl codeAndValue.1 codeAndValue.2

theorem pointsAt_missing {fields : Fields} {name : String}
    (resolves : pointer.resolve document = some (.object fields))
    (absent : fields.has name = false) :
    ((missingField name).issue (pointer ++ [.field name])).PointsAt document :=
  .of_absent resolves absent rfl (by simp [issue, code, Issue.missingCodes])

end Flaw

/-! ## Steps into documents -/

namespace Pointer
variable {document part : Json} {pointer : Pointer}

theorem resolve_field {fields : Fields} {name : String}
    (resolves : pointer.resolve document = some (.object fields))
    (found : fields.get? name = some part) :
    (pointer ++ [Step.field name]).resolve document = some part := by
  simp [resolve_append, resolves, resolve, found]

theorem resolve_index {items : List Json} {position : Nat}
    (resolves : pointer.resolve document = some (.array items))
    (found : items[position]? = some part) :
    (pointer ++ [Step.index position]).resolve document = some part := by
  simp [resolve_append, resolves, resolve, found]

end Pointer

/-! ## Checks that point at parts -/

namespace Check

/-- The issues that a check finds in a part below the root of a document point at parts of the
document. -/
def Points (check : Pointer → Json → List Issue) : Prop :=
  ∀ (document : Json) (pointer : Pointer) (step : Step) (part : Json), part.Distinct →
    (pointer ++ [step]).resolve document = some part →
      ∀ issue ∈ check (pointer ++ [step]) part, issue.PointsAt document

def PointsInside (inside : Pointer → Fields → List Issue) : Prop :=
  ∀ (document : Json) (pointer : Pointer) (fields : Fields), (Json.object fields).Distinct →
    pointer.resolve document = some (.object fields) →
      ∀ issue ∈ inside pointer fields, issue.PointsAt document

/-- The issues that a check finds in a part are flaws of the part as a whole. -/
def OfPart (check : Pointer → Json → List Issue) : Prop :=
  ∀ pointer part, ∀ issue ∈ check pointer part,
    ∃ flaw : Flaw, flaw.part? = some part ∧ issue = flaw.issue pointer

theorem OfPart.points {check : Pointer → Json → List Issue} (flaws : OfPart check) :
    Points check := by
  intro document pointer step part _ resolves issue mem
  obtain ⟨flaw, reports, rfl⟩ := flaws _ _ issue mem
  exact flaw.pointsAt_part reports resolves

theorem string_ofPart : OfPart string := by
  intro pointer part issue mem
  unfold string at mem
  split at mem
  · cases mem
  · exact ⟨_, rfl, List.mem_singleton.mp mem⟩

theorem boolean_ofPart : OfPart boolean := by
  intro pointer part issue mem
  unfold boolean at mem
  split at mem
  · cases mem
  · exact ⟨_, rfl, List.mem_singleton.mp mem⟩

theorem member_ofPart (α : Type) [Vocabulary α] : OfPart (member α) := by
  intro pointer part issue mem
  unfold member at mem
  split at mem
  · split at mem
    · cases mem
    · exact ⟨_, rfl, List.mem_singleton.mp mem⟩
  · exact ⟨_, rfl, List.mem_singleton.mp mem⟩

variable {check : Pointer → Json → List Issue} {inside others : Pointer → Fields → List Issue}

theorem PointsInside.append (first : PointsInside inside) (second : PointsInside others) :
    PointsInside fun pointer fields => inside pointer fields ++ others pointer fields := by
  intro document pointer fields distinct resolves issue mem
  rcases List.mem_append.mp mem with mem | mem
  · exact first document pointer fields distinct resolves issue mem
  · exact second document pointer fields distinct resolves issue mem

theorem Points.optional (points : Points check) (name : String) :
    PointsInside (optional name check) := by
  intro document pointer fields distinct resolves issue mem
  unfold Check.optional at mem
  split at mem
  · next part found =>
    exact points document pointer (.field name) part (distinct.field found)
      (Pointer.resolve_field resolves found) issue mem
  · cases mem

theorem Points.entries (points : Points check) : PointsInside (entries check) := by
  intro document pointer fields distinct resolves issue mem
  obtain ⟨field, fieldMem, mem⟩ := List.mem_flatMap.mp mem
  exact points document pointer (.field field.1) field.2 (distinct.entry field fieldMem)
    (Pointer.resolve_field resolves (lookup_of_mem distinct.names fieldMem)) issue mem

theorem PointsInside.fields (points : PointsInside inside) (required : List String) :
    PointsInside fun pointer fields => object required inside pointer (.object fields) := by
  intro document pointer fields distinct resolves issue mem
  rcases List.mem_append.mp mem with mem | mem
  · obtain ⟨name, nameMem, rfl⟩ := List.mem_map.mp mem
    have absent := (List.mem_filter.mp nameMem).2
    exact Flaw.pointsAt_missing resolves (by simpa using absent)
  · exact points document pointer fields distinct resolves issue mem

theorem PointsInside.object (points : PointsInside inside) (required : List String) :
    Points (object required inside) := by
  intro document pointer step part distinct resolves issue mem
  cases part with
  | object fields => exact points.fields required document _ fields distinct resolves issue mem
  | _ =>
    rw [List.mem_singleton.mp mem]
    exact Flaw.pointsAt_part rfl resolves

theorem PointsInside.root (points : PointsInside inside) (required : List String) {document : Json}
    (distinct : document.Distinct) :
    ∀ issue ∈ Check.object required inside [] document, issue.PointsAt document := by
  intro issue mem
  cases document with
  | object fields => exact points.fields required _ [] fields distinct rfl issue mem
  | _ =>
    rw [List.mem_singleton.mp mem]
    exact .root (by simp) rfl rfl

theorem Points.items (points : Points check) (least : Nat) :
    Points (array least (items check)) := by
  intro document pointer step part distinct resolves issue mem
  cases part with
  | array parts =>
    rcases List.mem_append.mp mem with mem | mem
    · split at mem
      · rw [List.mem_singleton.mp mem]
        exact Flaw.pointsAt_part rfl resolves
      · cases mem
    · obtain ⟨⟨item, position⟩, placed, mem⟩ := List.mem_flatMap.mp mem
      have found := List.mem_zipIdx_iff_getElem?.mp placed
      exact points document (pointer ++ [step]) (.index position) item
        (distinct.item item (List.mem_of_getElem? found)) (Pointer.resolve_index resolves found)
        issue mem
  | _ =>
    rw [List.mem_singleton.mp mem]
    exact Flaw.pointsAt_part rfl resolves

/-! ## Token layers and manifests -/

theorem coreValue_ofPart : OfPart coreValue := by
  intro pointer part issue mem
  unfold coreValue at mem
  split at mem
  · cases mem
  · exact ⟨_, rfl, List.mem_singleton.mp mem⟩

theorem remBase_ofPart : OfPart remBase := by
  intro pointer part issue mem
  unfold remBase at mem
  split at mem
  · split at mem
    · cases mem
    · exact ⟨_, rfl, List.mem_singleton.mp mem⟩
  · exact ⟨_, rfl, List.mem_singleton.mp mem⟩

end Check
end DesignSystem
