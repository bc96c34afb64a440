import DesignSystem.Proofs.Check.Cause
import DesignSystem.Proofs.Check.TokenShape
import DesignSystem.Proofs.Json.PointerOrder

/-! # Entries are judged by themselves

The issues of a token or a rule are those that its check finds in it, one after the other. All
other issues are the same whatever the token or rule is.

* `Json.DifferAt`: two documents are alike but for the parts at a place.
* `Check.Stays`, `Check.Shallow`: how far below a pointer the issues of a check are.
* `Check.Ignores`: what a check finds does not depend on the value of a field.
* `Check.Frames`: two documents that differ at a place have the same issues before and after those
  of the parts there.
* `Schema.judges_entries`: the entries of token layers are judged by themselves.
-/

namespace DesignSystem
set_option autoImplicit false

/-- The item at a position with the items around it. -/
theorem exists_append_of_getElem? {α : Type} {items : List α} {position : Nat} {item : α}
    (found : items[position]? = some item) :
    ∃ before after, items = before ++ item :: after ∧ position = before.length := by
  obtain ⟨lt, rfl⟩ := List.getElem?_eq_some_iff.mp found
  exact ⟨items.take position, items.drop (position + 1), by simp, by simp; omega⟩

theorem Fields.get?_append_cons {before after : Fields} {name : String}
    (alone : name ∉ (before ++ after).map Prod.fst) (part : Json) :
    get? (before ++ (name, part) :: after) name = some part := by
  refine List.lookup_eq_some_iff.mpr ⟨before, after, rfl, fun field mem => ?_⟩
  rw [bne_iff_ne]
  rintro rfl
  exact alone (List.mem_map_of_mem (List.mem_append_left _ mem))

/-! ## Documents that differ at a place -/

namespace Json

/-- Two documents that are alike, but that the first has one part at a place and the second has
another one there. The names on the way are the only ones of their objects. -/
inductive DifferAt (part other : Json) : Pointer → Json → Json → Prop
  | root : DifferAt part other [] part other
  | field {before after : Fields} {name : String} {rest : Pointer} {first second : Json}
      (alone : name ∉ (before ++ after).map Prod.fst)
      (inside : DifferAt part other rest first second) :
      DifferAt part other (.field name :: rest) (.object (before ++ (name, first) :: after))
        (.object (before ++ (name, second) :: after))
  | index {before after : List Json} {rest : Pointer} {first second : Json}
      (inside : DifferAt part other rest first second) :
      DifferAt part other (.index before.length :: rest) (.array (before ++ first :: after))
        (.array (before ++ second :: after))

/-- The parts at the place are those in which the documents differ. -/
theorem DifferAt.leads {part other : Json} {place : Pointer} {first second : Json}
    (differ : DifferAt part other place first second) :
    place.resolve first = some part ∧ place.resolve second = some other := by
  induction differ with
  | root => exact ⟨rfl, rfl⟩
  | field alone inside ih => simp [Pointer.resolve, Fields.get?_append_cons alone, ih]
  | index inside ih => simp [Pointer.resolve, ih]

/-- Every document differs from itself in no more than any of its parts. -/
theorem DifferAt.self {part : Json} {place : Pointer} {document : Json}
    (distinct : document.Distinct) (resolves : place.resolve document = some part) :
    DifferAt part part place document document := by
  induction place generalizing document with
  | nil =>
    cases resolves
    exact .root
  | cons step rest ih =>
    cases step with
    | field name =>
      cases document with
      | object fields =>
        obtain ⟨next, found, leads⟩ := Option.bind_eq_some_iff.mp resolves
        obtain ⟨before, after, rfl, -⟩ := List.lookup_eq_some_iff.mp found
        have names := distinct.names
        rw [List.map_append, List.map_cons, List.nodup_middle, List.nodup_cons] at names
        exact .field (by simpa using names.1) (ih (distinct.field found) leads)
      | _ => cases resolves
    | index position =>
      cases document with
      | array items =>
        obtain ⟨next, found, leads⟩ := Option.bind_eq_some_iff.mp resolves
        obtain ⟨before, after, rfl, rfl⟩ := exists_append_of_getElem? found
        exact .index (ih (distinct.item _ (List.mem_of_getElem? found)) leads)
      | _ => cases resolves

/-- The parts of a container with the steps to them. -/
def children : Json → List (Step × Json)
  | object fields => fields.map fun field => (.field field.1, field.2)
  | array items => items.zipIdx.map fun (item, position) => (.index position, item)
  | _ => []

/-- Containers that differ in a part have the same parts before and after it, to which other steps
lead. -/
theorem DifferAt.children_eq {part other : Json} {step : Step} {first second : Json}
    (differ : DifferAt part other [step] first second) :
    ∃ before after, first.children = before ++ (step, part) :: after ∧
      second.children = before ++ (step, other) :: after ∧
      ∀ child ∈ before ++ after, child.1.spelling ≠ step.spelling := by
  cases differ with
  | field alone inside =>
    cases inside
    refine ⟨_, _, List.map_append, List.map_append, ?_⟩
    rw [← List.map_append, List.forall_mem_map]
    rintro field mem rfl
    exact alone (List.mem_map_of_mem mem)
  | @index before after _ _ _ inside =>
    cases inside
    refine ⟨before.zipIdx.map fun (item, position) => (.index position, item),
      (after.zipIdx (before.length + 1)).map fun (item, position) => (.index position, item),
      by simp [children, List.zipIdx_append], by simp [children, List.zipIdx_append], ?_⟩
    rw [← List.map_append, List.forall_mem_map]
    rintro ⟨item, position⟩ mem same
    have there : position = before.length := Step.spelling_index_injective same
    rcases List.mem_append.mp mem with mem | mem
    · have := List.mem_zipIdx mem
      omega
    · have := List.mem_zipIdx mem
      omega

end Json

namespace Check
variable {check entry : Pointer → Json → List Issue} {inside others : Pointer → Fields → List Issue}

/-! ## Where the issues of a check are -/

/-- The issues that a check finds in a part are at its pointer or below it. -/
def Stays (check : Pointer → Json → List Issue) : Prop :=
  ∀ pointer part, ∀ issue ∈ check pointer part, ∃ below, issue.place = .pointer (pointer ++ below)

/-- The issues that a check finds inside an object are at its fields. -/
def Shallow (inside : Pointer → Fields → List Issue) : Prop :=
  ∀ pointer fields, ∀ issue ∈ inside pointer fields,
    ∃ name, issue.place = .pointer (pointer ++ [.field name])

theorem OfPart.shallow (flaws : OfPart check) (name : String) : Shallow (optional name check) := by
  intro pointer fields issue mem
  unfold optional at mem
  split at mem
  · obtain ⟨flaw, -, rfl⟩ := flaws _ _ issue mem
    exact ⟨name, rfl⟩
  · cases mem

theorem closed_shallow (known : List String) : Shallow (closed known) := by
  intro pointer fields issue mem
  obtain ⟨field, -, rfl⟩ := List.mem_map.mp mem
  exact ⟨field.1, rfl⟩

theorem Shallow.append (first : Shallow inside) (second : Shallow others) :
    Shallow fun pointer fields => inside pointer fields ++ others pointer fields := by
  intro pointer fields issue mem
  rcases List.mem_append.mp mem with mem | mem
  · exact first pointer fields issue mem
  · exact second pointer fields issue mem

theorem Shallow.fields (shallow : Shallow inside) (required : List String) :
    Shallow fun pointer fields => object required inside pointer (.object fields) := by
  intro pointer fields issue mem
  rcases List.mem_append.mp mem with mem | mem
  · obtain ⟨name, -, rfl⟩ := List.mem_map.mp mem
    exact ⟨name, rfl⟩
  · exact shallow pointer fields issue mem

theorem Shallow.object (shallow : Shallow inside) (required : List String) :
    Stays (object required inside) := by
  intro pointer part issue mem
  cases part with
  | object fields =>
    obtain ⟨name, place⟩ := shallow.fields required pointer fields issue mem
    exact ⟨_, place⟩
  | _ =>
    rw [List.mem_singleton.mp mem]
    exact ⟨[], by simp [Flaw.issue]⟩

theorem Stays.isWithin (stays : Stays check) {pointer : Pointer} (nonempty : pointer ≠ [])
    (part : Json) : ∀ issue ∈ check pointer part, issue.isWithin pointer = true := by
  intro issue mem
  obtain ⟨below, place⟩ := stays pointer part issue mem
  rw [Issue.isWithin_iff place nonempty (by simp [nonempty]), List.map_append]
  exact List.prefix_append _ _

/-- The issues of a part are not at its siblings. -/
theorem Stays.not_isWithin (stays : Stays check) {parent : Pointer} {step other : Step}
    (apart : step.spelling ≠ other.spelling) (part : Json) :
    ∀ issue ∈ check (parent ++ [step]) part, issue.isWithin (parent ++ [other]) = false := by
  intro issue mem
  obtain ⟨below, place⟩ := stays _ part issue mem
  rw [← Bool.not_eq_true, Issue.isWithin_iff place (by simp) (by simp)]
  intro under
  simp only [List.map_append, List.append_assoc, List.prefix_append_right_inj, List.map_cons,
    List.map_nil, List.cons_append, List.cons_prefix_cons] at under
  exact apart under.1.symm

/-- The issues at the fields of an object are not at the parts of these fields. -/
theorem Shallow.not_isWithin (shallow : Shallow inside) {pointer below : Pointer}
    (deep : 2 ≤ below.length) (fields : Fields) :
    ∀ issue ∈ inside pointer fields, issue.isWithin (pointer ++ below) = false := by
  intro issue mem
  obtain ⟨name, place⟩ := shallow pointer fields issue mem
  have nonempty : pointer ++ below ≠ [] := by
    rintro none
    rw [(List.append_eq_nil_iff.mp none).2] at deep
    exact absurd deep (by decide)
  rw [← Bool.not_eq_true, Issue.isWithin_iff place nonempty (by simp)]
  intro under
  have short := under.length_le
  simp only [List.map_append, List.length_append, List.length_map, List.length_singleton] at short
  omega

/-! ## What the issues of a check depend on -/

/-- What a check finds inside an object does not depend on the value of a field. -/
def Ignores (name : String) (inside : Pointer → Fields → List Issue) : Prop :=
  ∀ pointer (before after : Fields) part other,
    inside pointer (before ++ (name, part) :: after) =
      inside pointer (before ++ (name, other) :: after)

theorem closed_ignores (known : List String) (name : String) : Ignores name (closed known) := by
  intro pointer before after part other
  by_cases listed : name ∈ known <;> simp [closed, listed]

theorem optional_ignores (check : Pointer → Json → List Issue) {name other : String}
    (apart : other ≠ name) : Ignores name (optional other check) := by
  intro pointer before after part another
  have beq : (other == name) = false := beq_eq_false_iff_ne.mpr apart
  simp only [optional, Fields.get?, List.lookup_append, List.lookup_cons, beq]

theorem Ignores.append {name : String} (first : Ignores name inside) (second : Ignores name others) :
    Ignores name fun pointer fields => inside pointer fields ++ others pointer fields := by
  intro pointer before after part other
  simp only [first pointer before after part other, second pointer before after part other]

theorem Ignores.fields {name : String} (ignores : Ignores name inside) (required : List String) :
    Ignores name fun pointer fields => object required inside pointer (.object fields) := by
  intro pointer before after part other
  have there : ∀ key, Fields.has (before ++ (name, part) :: after) key =
      Fields.has (before ++ (name, other) :: after) key := fun key => by
    rw [Bool.eq_iff_iff, Fields.has_iff_mem, Fields.has_iff_mem]
    simp
  simp only [object, there, ignores pointer before after part other]

/-- Where a step leads into a container, a check of the container is the check of its parts, one
after the other. -/
def Walks (entry body : Pointer → Json → List Issue) (step : Step) : Prop :=
  ∀ pointer container part, Pointer.resolve [step] container = some part →
    body pointer container =
      container.children.flatMap fun child => entry (pointer ++ [child.1]) child.2

theorem dictionary_walks (entry : Pointer → Json → List Issue) (name : String) :
    Walks entry (object [] (entries entry)) (.field name) := by
  intro pointer container part leads
  cases container with
  | object fields => simp [object, entries, Json.children, List.flatMap_map]
  | _ => cases leads

theorem items_walks (entry : Pointer → Json → List Issue) (position : Nat) :
    Walks entry (array 0 (items entry)) (.index position) := by
  intro pointer container part leads
  cases container with
  | array documents => simp [array, items, Json.children, List.flatMap_map]
  | _ => cases leads

/-! ## Checks of documents with entries -/

/-- The issues of two documents that differ at a place are the same before and after those of the
parts there, and are not within the place. -/
def Frames (issues : Json → List Issue) (entry : Pointer → Json → List Issue) (place : Pointer) :
    Prop :=
  ∀ first second part other, Json.DifferAt part other place first second →
    ∃ before after, (∀ issue ∈ before ++ after, issue.isWithin place = false) ∧
      issues first = before ++ (entry place part ++ after) ∧
      issues second = before ++ (entry place other ++ after)

/-- The issues of a container around those of a part in which two containers differ. -/
theorem Walks.frames {body : Pointer → Json → List Issue} {step : Step}
    (walks : Walks entry body step) (stays : Stays entry) {part other first second : Json}
    (differ : Json.DifferAt part other [step] first second) (parent : Pointer) :
    ∃ before after, (∀ issue ∈ before ++ after, issue.isWithin (parent ++ [step]) = false) ∧
      body parent first = before ++ (entry (parent ++ [step]) part ++ after) ∧
      body parent second = before ++ (entry (parent ++ [step]) other ++ after) := by
  obtain ⟨before, after, children, childrenOther, apart⟩ := differ.children_eq
  refine ⟨before.flatMap fun child => entry (parent ++ [child.1]) child.2,
    after.flatMap fun child => entry (parent ++ [child.1]) child.2, ?_, ?_, ?_⟩
  · rw [← List.flatMap_append]
    intro issue mem
    obtain ⟨child, listed, mem⟩ := List.mem_flatMap.mp mem
    exact stays.not_isWithin (apart child listed) child.2 issue mem
  · rw [walks parent first part differ.leads.1, children, List.flatMap_append, List.flatMap_cons]
  · rw [walks parent second other differ.leads.2, childrenOther, List.flatMap_append,
      List.flatMap_cons]

/-- A document with a field for a container of entries. -/
theorem frames {required : List String} {head : Pointer → Fields → List Issue} {container : String}
    {body : Pointer → Json → List Issue} {step : Step} (shallow : Shallow head)
    (ignores : Ignores container head) (stays : Stays entry) (walks : Walks entry body step) :
    Frames (object required (fun pointer fields =>
      head pointer fields ++ optional container body pointer fields) []) entry
      [.field container, step] := by
  intro _ _ part other differ
  cases differ with
  | @field before after _ _ first second alone inside =>
    have whole : ∀ value, object required (fun pointer fields =>
          head pointer fields ++ optional container body pointer fields) []
          (.object (before ++ (container, value) :: after)) =
        object required head [] (.object (before ++ (container, value) :: after)) ++
          body [.field container] value := fun value => by
      simp only [object, optional, Fields.get?_append_cons alone, List.append_assoc, List.nil_append]
    have same : object required head [] (.object (before ++ (container, first) :: after)) =
        object required head [] (.object (before ++ (container, second) :: after)) :=
      ignores.fields required [] before after first second
    obtain ⟨leading, trailing, elsewhere, issues, issuesOther⟩ :=
      walks.frames stays inside [.field container]
    refine ⟨object required head [] (.object (before ++ (container, first) :: after)) ++ leading,
      trailing, ?_, ?_, ?_⟩
    · rw [List.append_assoc, List.forall_mem_append]
      exact ⟨(shallow.fields required).not_isWithin (by simp) _, elsewhere⟩
    · rw [whole, issues, List.append_assoc]
      rfl
    · rw [whole, ← same, issuesOther, List.append_assoc]
      rfl

/-! ## Token layers -/

theorem schemaAndVersion_shallow : Shallow schemaAndVersion :=
  (string_ofPart.shallow "$schema").append (string_ofPart.shallow "$version")

theorem schemaAndVersion_ignores {name : String} (schema : "$schema" ≠ name)
    (version : "$version" ≠ name) : Ignores name schemaAndVersion :=
  (optional_ignores string schema).append (optional_ignores string version)

theorem coreToken_stays : Stays coreToken :=
  (((coreValue_ofPart.shallow "value").append
    ((member_ofPart Category).shallow "category")).append
    (string_ofPart.shallow "description")).object _

theorem coreTokens_frames (name : String) :
    Frames coreTokens coreToken [.field "tokens", .field name] :=
  frames ((closed_shallow _).append schemaAndVersion_shallow)
    ((closed_ignores _ _).append (schemaAndVersion_ignores (by decide) (by decide)))
    coreToken_stays (dictionary_walks _ _)

theorem semanticToken_stays : Stays semanticToken :=
  ((string_ofPart.shallow "ref").append (string_ofPart.shallow "description")).object _

theorem semanticTokens_frames (name : String) :
    Frames semanticTokens semanticToken [.field "tokens", .field name] :=
  frames (((closed_shallow _).append schemaAndVersion_shallow).append
      ((member_ofPart Theme).shallow "$theme"))
    (((closed_ignores _ _).append (schemaAndVersion_ignores (by decide) (by decide))).append
      (optional_ignores _ (by decide)))
    semanticToken_stays (dictionary_walks _ _)

theorem platformRule_stays : Stays platformRule :=
  (((string_ofPart.shallow "category").append
    ((member_ofPart Transform).shallow "transform")).append
    (remBase_ofPart.shallow "remBase")).object _

theorem platformRules_frames (position : Nat) :
    Frames platformRules platformRule [.field "rules", .index position] :=
  frames (((closed_shallow _).append schemaAndVersion_shallow).append
      ((member_ofPart Platform).shallow "$platform"))
    (((closed_ignores _ _).append (schemaAndVersion_ignores (by decide) (by decide))).append
      (optional_ignores _ (by decide)))
    platformRule_stays (items_walks _ _)

end Check

/-! ## Reports -/

namespace Schema

/-- A check judges the part at a place by itself. What its report has about the part is what the
check of the part finds there: one block, and none if the part has its shape. What else the report
has is the same whatever the part is. -/
structure JudgesEntry (check : Json → Except NumberFault Report)
    (entry : Pointer → Json → List Issue) (shape : Json → Prop) (place : Pointer) : Prop where
  block : ∀ document part, document.Distinct → document.integersInRange = true →
    place.resolve document = some part →
      ∃ report, check document = .ok report ∧ report.within place = entry place part ∧
        report.within place <:+: report.issues ∧ (report.within place = [] ↔ shape part)
  frame : ∀ first second part other, Json.DifferAt part other place first second →
    first.integersInRange = true → second.integersInRange = true →
      ∃ report reportOther, check first = .ok report ∧ check second = .ok reportOther ∧
        report.outside place = reportOther.outside place

theorem judgesEntry {check : Json → Except NumberFault Report} {issues : Json → List Issue}
    {entry : Pointer → Json → List Issue} {shape : Json → Prop} {place : Pointer}
    (returns : ∀ document, document.integersInRange = true → check document = .ok ⟨issues document⟩)
    (frames : Check.Frames issues entry place) (stays : Check.Stays entry)
    (decides : Check.Decides entry shape) (nonempty : place ≠ []) :
    JudgesEntry check entry shape place where
  block document part distinct inRange leads := by
    obtain ⟨before, after, elsewhere, found, -⟩ :=
      frames document document part part (.self distinct leads)
    have within : (Report.mk (issues document)).within place = entry place part := by
      rw [found]
      exact (Report.parts_of_append elsewhere (stays.isWithin nonempty part)).1
    refine ⟨_, returns document inRange, within, ?_, ?_⟩
    · rw [within]
      exact ⟨before, after, by rw [found, List.append_assoc]⟩
    · rw [within, decides place part]
  frame first second part other differ inRange inRangeOther := by
    obtain ⟨before, after, elsewhere, found, foundOther⟩ := frames first second part other differ
    refine ⟨_, _, returns first inRange, returns second inRangeOther, ?_⟩
    rw [found, foundOther,
      (Report.parts_of_append elsewhere (stays.isWithin nonempty part)).2,
      (Report.parts_of_append elsewhere (stays.isWithin nonempty other)).2]

/-- The checks of token layers judge every token, and every rule, by itself. -/
theorem judges_entries :
    (∀ name, JudgesEntry core.check Check.coreToken (Json.IsObject Shape.CoreToken)
      [.field "tokens", .field name]) ∧
    (∀ name, JudgesEntry semantic.check Check.semanticToken (Json.IsObject Shape.SemanticToken)
      [.field "tokens", .field name]) ∧
    ∀ position, JudgesEntry platform.check Check.platformRule (Json.IsObject Shape.PlatformRule)
      [.field "rules", .index position] := by
  refine ⟨fun name => ?_, fun name => ?_, fun position => ?_⟩
  · exact judgesEntry (fun _ => core_check) (Check.coreTokens_frames name) Check.coreToken_stays
      Check.coreToken_decides (by simp)
  · exact judgesEntry (fun _ _ => rfl) (Check.semanticTokens_frames name)
      Check.semanticToken_stays Check.semanticToken_decides (by simp)
  · exact judgesEntry (fun _ => platform_check) (Check.platformRules_frames position)
      Check.platformRule_stays Check.platformRule_decides (by simp)

/-- Tokens with names that begin alike, have slashes or are empty; only the second is in order. -/
def nestedNames (token : Json) : Json :=
  .object [("tokens", .object [("a", token), ("a/b", .object [("value", .string "")]),
    ("a~1b", .null), ("", .object [("value", .bool true)])])]

theorem judges_entries_nested :
    let place : Pointer := [.field "tokens", .field "a"]
    let broken : Json := .object [("category", .string "hue")]
    let sound : Json := .object [("value", .string "1px")]
    Json.DifferAt broken sound place (nestedNames broken) (nestedNames sound) ∧
    (∃ report reportOther, core.check (nestedNames broken) = .ok report ∧
      core.check (nestedNames sound) = .ok reportOther ∧
      report.outside place = reportOther.outside place ∧
      (report.outside place).length = 2) ∧
    (∃ report, core.check (nestedNames broken) = .ok report ∧
      report.within place <:+: report.issues ∧ (report.within place).length = 2) ∧
    ∃ report, core.check (nestedNames sound) = .ok report ∧ report.within place = [] := by
  intro place broken sound
  have differ : Json.DifferAt broken sound place (nestedNames broken) (nestedNames sound) :=
    @Json.DifferAt.field _ _ [] [] _ _ _ _ (by simp)
      (@Json.DifferAt.field _ _ [] _ _ _ _ _ (by simp) .root)
  have inRange : (nestedNames broken).integersInRange = true := by decide
  have inRangeSound : (nestedNames sound).integersInRange = true := by decide
  obtain ⟨report, reportOther, checks, checksOther, same⟩ :=
    (judges_entries.1 "a").frame _ _ _ _ differ inRange inRangeSound
  obtain ⟨brokenReport, checksBroken, found, block, -⟩ :=
    (judges_entries.1 "a").block _ broken (by decide) inRange (by rfl)
  obtain ⟨soundReport, checksSound, -, -, accepts⟩ :=
    (judges_entries.1 "a").block _ sound (by decide) inRangeSound (by rfl)
  refine ⟨differ, ⟨report, reportOther, checks, checksOther, same, ?_⟩,
    ⟨brokenReport, checksBroken, block, ?_⟩, soundReport, checksSound, ?_⟩
  · rw [same]
    cases checksOther.symm.trans (core_check inRangeSound)
    decide +kernel
  · rw [found]
    decide +kernel
  · exact accepts.mpr ((Check.coreToken_decides [] sound).mp (by rfl))

end Schema
end DesignSystem
