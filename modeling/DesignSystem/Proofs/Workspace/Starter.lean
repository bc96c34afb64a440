import DesignSystem.Proofs.Workspace.Location
import Mathlib.Data.List.Forall2

/-! # The starter documents

* `Starter.documents`: the starter documents and their locations, in the order in which they are
  written.
* `Starter.documents_distinct`, `Starter.documents_unicode`, `Starter.documents_writable`,
  `Starter.documents_build`: each of them can be written, and builds a model.
* `Starter.compiles`: they compile for every platform and theme, to tokens of the same names.
* `Workspace.starterWrites_enter`: each is written into a slot at its location.
-/

namespace DesignSystem
set_option autoImplicit false

namespace Starter

/-- The starter documents with their locations. -/
def documents : List (Location × Json) :=
  [(.system, system), (.core, core)] ++
    [Theme.light, .dark].map (fun theme => (.semantic theme, semantic theme)) ++
    [Platform.web, .rn].map (fun target => (.platform target, platform target)) ++
    [(.contract "Button", button)]

/-- What holds of the starter documents of each kind holds of all. -/
theorem forall_documents (holds : Location → Json → Prop) :
    (∀ starter ∈ documents, holds starter.1 starter.2) ↔
      holds .system system ∧ holds .core core ∧
      (∀ theme, holds (.semantic theme) (semantic theme)) ∧
      (∀ target, holds (.platform target) (platform target)) ∧
      holds (.contract "Button") button := by
  constructor
  · intro all
    refine ⟨all (.system, system) (by simp [documents]), all (.core, core) (by simp [documents]),
      fun theme => all (.semantic theme, semantic theme) ?_,
      fun target => all (.platform target, platform target) ?_,
      all (.contract "Button", button) (by simp [documents])⟩
    · cases theme <;> simp [documents]
    · cases target <;> simp [documents]
  · rintro ⟨onSystem, onCore, onSemantic, onPlatform, onButton⟩
    simp [documents, onSystem, onCore, onSemantic, onPlatform, onButton]

/-! ## Writing -/

theorem documents_distinct : ∀ starter ∈ documents, starter.2.Distinct := by
  refine (forall_documents fun _ document => document.Distinct).mpr
    ⟨by decide +kernel, by decide +kernel, fun theme => ?_, fun target => ?_, by decide +kernel⟩
  · cases theme <;> decide +kernel
  · cases target <;> decide +kernel

theorem documents_unicode : ∀ starter ∈ documents, starter.2.Unicode := by
  refine (forall_documents fun _ document => document.Unicode).mpr
    ⟨by decide +kernel, by decide +kernel, fun theme => ?_, fun target => ?_, by decide +kernel⟩
  · cases theme <;> decide +kernel
  · cases target <;> decide +kernel

theorem documents_writable : ∀ starter ∈ documents, starter.2.unwritable? true = none := by
  have writes : ∀ starter ∈ documents, (starter.2.unwritable? true).isNone = true := by
    decide +kernel
  exact fun starter mem => Option.isNone_iff_eq_none.mp (writes starter mem)

/-! ## Locations -/

theorem documents_canonical : ∀ starter ∈ documents, starter.1.canonical = starter.1 := by
  have button : safeName "Button" = "Button" := by decide
  exact (forall_documents fun location _ => location.canonical = location).mpr
    ⟨rfl, rfl, fun _ => rfl, fun _ => rfl, congrArg Location.contract button⟩

theorem documents_nodup : (documents.map Prod.fst).Nodup := by
  simp [documents]

/-! ## Models -/

/-- The names of the tokens that documents compile to, if each of them builds a model. -/
def compiledNames? (core semantic platform : Json) : Option (List String) :=
  match Schema.core.build core, Schema.semantic.build semantic, Schema.platform.build platform with
  | .ok (.ok core), .ok (.ok semantic), .ok (.ok rules) =>
    match compile core semantic rules with
    | .ok tokens => some tokens.names
    | _ => none
  | _, _, _ => none

theorem compiledNames?_eq_some {core semantic platform : Json} {names : List String}
    (h : compiledNames? core semantic platform = some names) :
    ∃ coreTokens semanticTokens rules tokens,
      Schema.core.build core = .ok (.ok coreTokens) ∧
      Schema.semantic.build semantic = .ok (.ok semanticTokens) ∧
      Schema.platform.build platform = .ok (.ok rules) ∧
      compile coreTokens semanticTokens rules = .ok tokens ∧ tokens.names = names := by
  unfold compiledNames? at h
  split at h
  · next coreTokens semanticTokens rules buildsCore buildsSemantic buildsRules =>
    split at h
    · next tokens compiles =>
      exact ⟨coreTokens, semanticTokens, rules, tokens, buildsCore, buildsSemantic, buildsRules,
        compiles, Option.some.inj h⟩
    · cases h
  · cases h

/-- The names of the starter tokens, which the themes share. -/
def tokenNames : List String := (themeColors .light ++ sharedTokens).map Prod.fst

/-- The starter documents compile for every platform and theme, to tokens of the same names. -/
theorem compiles (target : Platform) (theme : Theme) :
    compiledNames? core (semantic theme) (platform target) = some tokenNames := by
  cases target <;> cases theme <;> decide +kernel

/-- Whether a document builds a model of a kind. -/
def builds {α : Type} (schema : Schema α) (document : Json) : Bool :=
  match schema.build document with
  | .ok (.ok _) => true
  | _ => false

theorem exists_of_builds {α : Type} {schema : Schema α} {document : Json}
    (h : builds schema document = true) : ∃ model, schema.build document = .ok (.ok model) := by
  unfold builds at h
  split at h
  · next model builds => exact ⟨model, builds⟩
  · cases h

theorem documents_build : ∀ starter ∈ documents, starter.1.Builds starter.2 := by
  refine (forall_documents Location.Builds).mpr ⟨exists_of_builds (by decide +kernel), ?_,
    fun theme => ?_, fun target => ?_, exists_of_builds (by decide +kernel)⟩
  · obtain ⟨model, _, _, _, builds, -⟩ := compiledNames?_eq_some (compiles .web .light)
    exact ⟨model, builds⟩
  · obtain ⟨_, model, _, _, _, builds, -⟩ := compiledNames?_eq_some (compiles .web theme)
    exact ⟨model, builds⟩
  · obtain ⟨_, _, model, _, _, _, builds, -⟩ := compiledNames?_eq_some (compiles target .light)
    exact ⟨model, builds⟩

end Starter

/-! ## Starter writes -/

namespace Workspace

/-- A write of a Unicode document into a slot at a location. Its failures are those of
documents. -/
def Enters (workspace : Workspace) (write : Write) (starter : Location × Json) : Prop :=
  starter.2.Unicode ∧ ∃ (α : Type) (slot : Slot α), workspace.AtLocation slot starter.1 ∧
    slot.schema.invalid ≠ .workspaceInvalidStructure ∧
    write = fun disk => slot.write disk starter.2

/-- The starter writes write the starter documents, one after the other. -/
theorem starterWrites_enter (workspace : Workspace) :
    List.Forall₂ workspace.Enters workspace.starterWrites Starter.documents := by
  have button : workspace.AtLocation (workspace.contract "Button") (.contract "Button") :=
    workspace.contract_atLocation "Button"
  obtain ⟨onSystem, onCore, onSemantic, onPlatform, onButton⟩ :=
    (Starter.forall_documents fun _ document => document.Unicode).mp Starter.documents_unicode
  exact .cons ⟨onSystem, _, _, workspace.system_atLocation, nofun, rfl⟩ <|
    .cons ⟨onCore, _, _, workspace.core_atLocation, nofun, rfl⟩ <|
    .cons ⟨onSemantic .light, _, _, workspace.semantic_atLocation .light, nofun, rfl⟩ <|
    .cons ⟨onSemantic .dark, _, _, workspace.semantic_atLocation .dark, nofun, rfl⟩ <|
    .cons ⟨onPlatform .web, _, _, workspace.platform_atLocation .web, nofun, rfl⟩ <|
    .cons ⟨onPlatform .rn, _, _, workspace.platform_atLocation .rn, nofun, rfl⟩ <|
    .cons ⟨onButton, _, _, button, nofun, rfl⟩ .nil

end Workspace
end DesignSystem
