import DesignSystem.Proofs.Model.Agreement
import DesignSystem.Proofs.Model.Origin
import DesignSystem.Proofs.Workspace.Location
import DesignSystem.Proofs.Workspace.Write

/-! # What token files declare

The file of a theme or a platform goes by its name. The theme or platform that the document in it
declares is checked for being one, and has no other use.

* `Workspace.Declares`: the document at a location declares a member of a vocabulary.
* `Workspace.compile_declared`: what is read declares a theme or a platform, and the compiled tokens
  do not depend on which.
* `Workspace.compile_declared_otherwise`: it need not be the one that was asked for.
-/

namespace DesignSystem
set_option autoImplicit false

/-! ## Documents -/

theorem SemanticTokens.declared {document : Json} {semantic : SemanticTokens}
    (builds : Schema.semantic.build document = .ok (.ok semantic)) :
    ∃ fields : Fields, document = .object fields ∧
      fields.get? "$theme" = some (Encoded.word semantic.theme) := by
  obtain ⟨accepted, decodes⟩ := Schema.build_eq_ok builds
  obtain ⟨fields, rfl, shape⟩ :=
    (Check.semanticTokens_decides document).mp (Schema.accepts_total accepted)
  have decodes : SemanticTokens.decode (.object fields) = .ok semantic := decodes
  obtain ⟨_, same, decodedTheme⟩ := SemanticTokens.decode_eq_ok decodes
  cases same
  exact ⟨fields, rfl, Decoded.get?_of_required_member shape.theme decodedTheme⟩

theorem PlatformRules.declared {document : Json} {rules : PlatformRules}
    (builds : Schema.platform.build document = .ok (.ok rules)) :
    ∃ fields : Fields, document = .object fields ∧
      fields.get? "$platform" = some (Encoded.word rules.platform) := by
  obtain ⟨accepted, decodes⟩ := Schema.build_eq_ok builds
  obtain ⟨fields, rfl, shape⟩ :=
    (Check.platformRules_decides document).mp (Schema.accepts_guarded accepted)
  have decodes : PlatformRules.decode (.object fields) = .ok rules := decodes
  obtain ⟨_, same, decodedPlatform, -⟩ := PlatformRules.decode_eq_ok decodes
  cases same
  exact ⟨fields, rfl, Decoded.get?_of_required_member shape.platform decodedPlatform⟩

/-! ## Files -/

namespace Workspace

/-- The document in the file at a location declares a member of a vocabulary in a field. -/
def Declares {α : Type} [Vocabulary α] (workspace : Workspace) (disk : Disk) (location : Location)
    (name : String) (member : α) : Prop :=
  ∃ bytes fields, disk.readFile (workspace.root.below location.tail) = .ok bytes ∧
    Slot.parse bytes = .ok (.object fields) ∧ Fields.get? fields name = some (Encoded.word member)

variable {workspace : Workspace} {disk : Disk} {target : Platform} {theme : Theme}

/-- If every document that builds a model declares a member, so does the one the model is read
from. -/
theorem declares_of_read {α β : Type} [Vocabulary β] {slot : Slot α} {location : Location}
    {model : α} {name : String} {member : β} (located : workspace.AtLocation slot location)
    (reads : slot.read disk = .ok model)
    (declared : ∀ document, slot.schema.build document = .ok (.ok model) →
      ∃ fields : Fields, document = .object fields ∧
        fields.get? name = some (Encoded.word member)) :
    workspace.Declares disk location name member := by
  obtain ⟨bytes, document, file, parses, builds⟩ := Slot.read_eq_ok.mp reads
  rw [located.path] at file
  obtain ⟨fields, rfl, declared⟩ := declared document builds
  exact ⟨bytes, fields, file, parses, declared⟩

theorem declares_theme {semantic : SemanticTokens}
    (reads : (workspace.semantic theme).read disk = .ok semantic) :
    workspace.Declares disk (.semantic theme) "$theme" semantic.theme :=
  declares_of_read (workspace.semantic_atLocation theme) reads fun _ => SemanticTokens.declared

theorem declares_platform {rules : PlatformRules}
    (reads : (workspace.platform target).read disk = .ok rules) :
    workspace.Declares disk (.platform target) "$platform" rules.platform :=
  declares_of_read (workspace.platform_atLocation target) reads fun _ => PlatformRules.declared

theorem compile_eq_ok {tokens : CompiledTokens}
    (h : workspace.compile disk target theme = .ok tokens) :
    ∃ core semantic rules, workspace.core.read disk = .ok core ∧
      (workspace.semantic theme).read disk = .ok semantic ∧
      (workspace.platform target).read disk = .ok rules ∧
      DesignSystem.compile core semantic rules = .ok tokens := by
  obtain ⟨core, readsCore, h⟩ := Outcome.bind_eq_ok h
  obtain ⟨semantic, readsSemantic, h⟩ := Outcome.bind_eq_ok h
  obtain ⟨rules, readsRules, compiles⟩ := Outcome.bind_eq_ok h
  exact ⟨core, semantic, rules, readsCore, readsSemantic, readsRules, compiles⟩

/-- What is read for a theme or a platform is the document in the file that goes by its name, which
declares a theme or a platform. The tokens that are compiled for them come from these documents, and
would be the same whatever these declared. -/
theorem compile_declared (workspace : Workspace) (disk : Disk) :
    (∀ theme semantic, (workspace.semantic theme).read disk = .ok semantic →
      workspace.Declares disk (.semantic theme) "$theme" semantic.theme) ∧
    (∀ target rules, (workspace.platform target).read disk = .ok rules →
      workspace.Declares disk (.platform target) "$platform" rules.platform) ∧
    ∀ target theme tokens, workspace.compile disk target theme = .ok tokens →
      ∃ core semantic rules, workspace.core.read disk = .ok core ∧
        (workspace.semantic theme).read disk = .ok semantic ∧
        (workspace.platform target).read disk = .ok rules ∧
        ∀ otherTheme otherPlatform,
          DesignSystem.compile core { semantic with theme := otherTheme }
            { rules with platform := otherPlatform } = .ok tokens := by
  refine ⟨fun theme semantic => declares_theme, fun target rules => declares_platform,
    fun target theme tokens compiles => ?_⟩
  obtain ⟨core, semantic, rules, readsCore, readsSemantic, readsRules, compiled⟩ :=
    compile_eq_ok compiles
  exact ⟨core, semantic, rules, readsCore, readsSemantic, readsRules, fun _ _ => compiled⟩

/-- A disk with token files for the light theme and the web, which declare a theme and a
platform. -/
def declaringDisk (theme : Theme) (target : Platform) : Disk := ⟨[("library", .directory [("tokens",
  .directory [
    ("core.json", .file (Slot.bytes (.object [("tokens", .object [
      ("ink", .object [("value", .string "#111111")])])]))),
    ("semantic.light.json", .file (Slot.bytes (.object [("$theme", Encoded.word theme),
      ("tokens", .object [("text", .object [("ref", .string "ink")])])]))),
    ("platform.web.json", .file (Slot.bytes (.object [("$platform", Encoded.word target),
      ("rules", .array [])])))])])]⟩

/-- The theme and the platform that the documents declare whose tokens compile. -/
def declaredMembers? (workspace : Workspace) (disk : Disk) (target : Platform) (theme : Theme) :
    Option (Theme × Platform) :=
  match (workspace.semantic theme).read disk, (workspace.platform target).read disk,
      workspace.compile disk target theme with
  | .ok semantic, .ok rules, .ok _ => some (semantic.theme, rules.platform)
  | _, _, _ => none

theorem declaredMembers?_eq_some {platform : Platform} {declared : Theme}
    (h : workspace.declaredMembers? disk target theme = some (declared, platform)) :
    ∃ semantic rules tokens, (workspace.semantic theme).read disk = .ok semantic ∧
      semantic.theme = declared ∧ (workspace.platform target).read disk = .ok rules ∧
      rules.platform = platform ∧ workspace.compile disk target theme = .ok tokens := by
  unfold declaredMembers? at h
  split at h
  · next semantic rules tokens readsSemantic readsRules compiles =>
    cases h
    exact ⟨semantic, rules, tokens, readsSemantic, rfl, readsRules, rfl, compiles⟩
  · cases h

theorem declaredMembers?_declaringDisk (theme : Theme) (target : Platform) :
    declaredMembers? ⟨.ofText "library"⟩ (declaringDisk theme target) .web .light =
      some (theme, target) := by
  cases theme <;> cases target <;> decide +kernel

theorem compile_declared_plain : ∃ semantic rules tokens,
    (Workspace.semantic ⟨.ofText "library"⟩ .light).read (declaringDisk .light .web) =
      .ok semantic ∧
    Declares ⟨.ofText "library"⟩ (declaringDisk .light .web) (.semantic .light) "$theme"
      semantic.theme ∧
    (Workspace.platform ⟨.ofText "library"⟩ .web).read (declaringDisk .light .web) = .ok rules ∧
    Declares ⟨.ofText "library"⟩ (declaringDisk .light .web) (.platform .web) "$platform"
      rules.platform ∧
    Workspace.compile ⟨.ofText "library"⟩ (declaringDisk .light .web) .web .light = .ok tokens ∧
    ∃ core : CoreTokens, ∀ otherTheme otherPlatform,
      DesignSystem.compile core { semantic with theme := otherTheme }
        { rules with platform := otherPlatform } = .ok tokens := by
  obtain ⟨semantic, rules, tokens, readsSemantic, -, readsRules, -, compiles⟩ :=
    declaredMembers?_eq_some (declaredMembers?_declaringDisk .light .web)
  obtain ⟨themes, platforms, compiled⟩ :=
    compile_declared ⟨.ofText "library"⟩ (declaringDisk .light .web)
  obtain ⟨core, _, _, -, sameSemantic, sameRules, same⟩ := compiled .web .light tokens compiles
  cases readsSemantic.symm.trans sameSemantic
  cases readsRules.symm.trans sameRules
  exact ⟨semantic, rules, tokens, readsSemantic, themes _ _ readsSemantic, readsRules,
    platforms _ _ readsRules, compiles, core, same⟩

/-- Tokens compile for the web and the light theme from documents that declare the dark theme and
the other platform. -/
theorem compile_declared_otherwise :
    (∃ tokens, Workspace.compile ⟨.ofText "library"⟩ (declaringDisk .dark .rn) .web .light =
      .ok tokens) ∧
    (∃ semantic, (Workspace.semantic ⟨.ofText "library"⟩ .light).read (declaringDisk .dark .rn) =
      .ok semantic) ∧
    Declares ⟨.ofText "library"⟩ (declaringDisk .dark .rn) (.semantic .light) "$theme"
      Theme.dark ∧
    (∃ rules, (Workspace.platform ⟨.ofText "library"⟩ .web).read (declaringDisk .dark .rn) =
      .ok rules) ∧
    Declares ⟨.ofText "library"⟩ (declaringDisk .dark .rn) (.platform .web) "$platform"
      Platform.rn := by
  obtain ⟨semantic, rules, tokens, readsSemantic, theme, readsRules, platform, compiles⟩ :=
    declaredMembers?_eq_some (declaredMembers?_declaringDisk .dark .rn)
  have onSemantic := declares_theme readsSemantic
  have onRules := declares_platform readsRules
  rw [theme] at onSemantic
  rw [platform] at onRules
  exact ⟨⟨tokens, compiles⟩, ⟨semantic, readsSemantic⟩, onSemantic, ⟨rules, readsRules⟩, onRules⟩

end Workspace
end DesignSystem
