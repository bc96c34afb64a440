import DesignSystem.Proofs.Dict
import DesignSystem.Proofs.Text.Basic
import DesignSystem.Tokens.Compile

/-! # The meaning of compiled tokens

* `PlatformRules.lastRule?`: the last rule for the category of a core token.
* `isBad`: whether a semantic token has no value.
* `compile_meaning`: the first bad token decides how compiling ends; without one, every semantic
  token has the value of its core token under the last rule for it.
-/

namespace DesignSystem
set_option autoImplicit false

/-! ## Rules -/

/-- The last rule for the category of a core token, if it has one. -/
def PlatformRules.lastRule? (platform : PlatformRules) (token : CoreToken) :
    Option PlatformRule :=
  token.category.bind fun category =>
    platform.rules.reverse.find? (·.category = Vocabulary.word category)

theorem ruleMap_find? (platform : PlatformRules) (category : Text) :
    platform.ruleMap.find? category = platform.rules.reverse.find? (·.category = category) := by
  rw [PlatformRules.ruleMap, Dict.ofList, Dict.find?, lookup_collect, ← List.map_reverse,
    List.find?_map, Option.map_map]
  simp [Function.comp_def]

theorem ruleFor_ruleMap (platform : PlatformRules) (token : CoreToken) :
    ruleFor platform.ruleMap token = platform.lastRule? token := by
  simp only [ruleFor, PlatformRules.lastRule?, ruleMap_find?]

/-! ## Tokens -/

theorem CoreTokens.named?_eq_some {core : CoreTokens} {ref : Text} {token : CoreToken} :
    core.named? ref = some token ↔ ∃ name : String, ref = name ∧ (name, token) ∈
      core.tokens.entries := by
  rw [named?, Option.bind_eq_some_iff]
  refine exists_congr fun name => and_congr Text.string?_eq_some_iff ?_
  exact ⟨mem_of_lookup, lookup_of_mem core.tokens.distinct⟩

/-- Whether a semantic token has no value: its ref names no core token, or the value of that cannot
be transformed. -/
def isBad (core : CoreTokens) (platform : PlatformRules) (token : SemanticToken) : Bool :=
  match core.named? token.ref with
  | none => true
  | some found => !(found.value.transformed (platform.lastRule? found)).isOk

theorem compileToken_of_good {core : CoreTokens} {platform : PlatformRules}
    {token : SemanticToken} (h : isBad core platform token = false) (name : String) :
    ∃ found value, core.named? token.ref = some found ∧
      found.value.transformed (platform.lastRule? found) = .ok value ∧
      compileToken core platform.ruleMap name token = .ok value := by
  unfold isBad at h
  split at h
  · cases h
  · next found finds =>
    cases transforms : found.value.transformed (platform.lastRule? found) with
    | error fault => simp [transforms, Except.isOk, Except.toBool] at h
    | ok value =>
      refine ⟨found, value, finds, transforms, ?_⟩
      simp only [compileToken, finds, ruleFor_ruleMap, transforms]

/-! ## Entries -/

section
variable {α : Type} {value : String → α → Outcome TokenValue}

theorem compileEntries_ok {entries : List (String × α)}
    (distinct : (entries.map Prod.fst).Nodup)
    (good : ∀ entry ∈ entries, ∃ v, value entry.1 entry.2 = .ok v) :
    ∃ compiled, compileEntries value entries = .ok compiled ∧
      compiled.map Prod.fst = entries.map Prod.fst ∧
      ∀ entry ∈ entries, ∃ v, value entry.1 entry.2 = .ok v ∧
        compiled.lookup entry.1 = some v := by
  induction entries with
  | nil => exact ⟨[], rfl, rfl, by simp⟩
  | cons entry rest ih =>
    rw [List.map_cons, List.nodup_cons] at distinct
    rw [List.forall_mem_cons] at good
    obtain ⟨⟨v, first⟩, good⟩ := good
    obtain ⟨others, compiles, names, values⟩ := ih distinct.2 good
    refine ⟨(entry.1, v) :: others, ?_, by rw [List.map_cons, List.map_cons, names], ?_⟩
    · rw [compileEntries, first, compiles]
      rfl
    · rw [List.forall_mem_cons]
      refine ⟨⟨v, first, by simp⟩, fun other mem => ?_⟩
      obtain ⟨w, hw, found⟩ := values other mem
      have apart : other.1 ≠ entry.1 := fun e =>
        distinct.1 (e ▸ List.mem_map_of_mem mem)
      exact ⟨w, hw, by simp [List.lookup_cons, beq_eq_false_iff_ne.mpr apart, found]⟩

/-- The first entry without a value decides how compiling ends. -/
theorem compileEntries_append {before : List (String × α)}
    (good : ∀ entry ∈ before, ∃ v, value entry.1 entry.2 = .ok v) (bad : String × α)
    (stops : (value bad.1 bad.2).isOk = false) (after : List (String × α)) :
    compileEntries value (before ++ bad :: after) =
      (value bad.1 bad.2).bind fun _ => .ok [] := by
  induction before with
  | nil =>
    rw [List.nil_append, compileEntries]
    cases h : value bad.1 bad.2 with
    | ok v => simp [h, Outcome.isOk] at stops
    | failed failure => rfl
    | aborted abort => rfl
  | cons entry before ih =>
    rw [List.forall_mem_cons] at good
    obtain ⟨⟨v, first⟩, good⟩ := good
    rw [List.cons_append, compileEntries, first, ih good]
    cases h : value bad.1 bad.2 with
    | ok v => simp [h, Outcome.isOk] at stops
    | failed failure => rfl
    | aborted abort => rfl

end

/-! ## Compiling -/

/-- The first bad semantic token in file order decides how compiling ends. If there is none, the
compiled tokens have the names of the semantic tokens, in order, and at each name the value of the
core token under the last rule for its category. -/
theorem compile_meaning (core : CoreTokens) (semantic : SemanticTokens)
    (platform : PlatformRules) :
    match semantic.tokens.entries.find? (isBad core platform ·.2) with
    | some (name, token) =>
      (core.named? token.ref = none ∧
        ∃ failure, compile core semantic platform = .failed failure ∧
          failure.code = .tokenRefNotFound ∧
          failure.details = [("tokenName", .string name), ("ref", .string token.ref)]) ∨
      (∃ found fault, core.named? token.ref = some found ∧
        found.value.transformed (platform.lastRule? found) = .error fault ∧
        compile core semantic platform = .aborted (.number fault))
    | none =>
      ∃ compiled, compile core semantic platform = .ok compiled ∧
        compiled.names = semantic.tokens.names ∧
        ∀ entry ∈ semantic.tokens.entries, ∃ found value,
          core.named? entry.2.ref = some found ∧
          found.value.transformed (platform.lastRule? found) = .ok value ∧
          compiled.find? entry.1 = some value := by
  -- compiling looks rules up in the map of them, `isBad` in the list
  have value := fun (entry : String × SemanticToken) (h : isBad core platform entry.2 = false) =>
    compileToken_of_good h entry.1
  split
  · next name token finds =>
    obtain ⟨bad, before, after, entries, good⟩ := List.find?_eq_some_iff_append.mp finds
    have good : ∀ entry ∈ before,
        ∃ v, compileToken core platform.ruleMap entry.1 entry.2 = .ok v := fun entry mem => by
      obtain ⟨-, v, -, -, compiles⟩ := value entry (by simpa using good entry mem)
      exact ⟨v, compiles⟩
    rw [compile, entries]
    unfold isBad at bad
    dsimp only at bad
    cases resolves : core.named? token.ref with
    | none =>
      have fails : compileToken core platform.ruleMap name token =
          .failed (unknownRef name token.ref) := by
        simp only [compileToken, resolves]
      rw [compileEntries_append good (name, token) (by simp only [fails]; rfl), fails]
      exact .inl ⟨rfl, unknownRef name token.ref, rfl, rfl, rfl⟩
    | some found =>
      cases transforms : found.value.transformed (platform.lastRule? found) with
      | ok v => simp [resolves, transforms, Except.isOk, Except.toBool] at bad
      | error fault =>
        have aborts : compileToken core platform.ruleMap name token = .aborted (.number fault) := by
          simp only [compileToken, resolves, ruleFor_ruleMap, transforms]
        rw [compileEntries_append good (name, token) (by simp only [aborts]; rfl), aborts]
        exact .inr ⟨found, fault, rfl, transforms, rfl⟩
  · next finds =>
    have good := fun entry mem => value entry
      (eq_false_of_ne_true (List.find?_eq_none.mp finds entry mem))
    obtain ⟨compiled, compiles, names, values⟩ :=
      compileEntries_ok semantic.tokens.distinct fun entry mem => by
        obtain ⟨-, v, -, -, compiles⟩ := good entry mem
        exact ⟨v, compiles⟩
    have kept : (Dict.ofList compiled).entries = compiled :=
      collect_eq_self (names ▸ semantic.tokens.distinct)
    refine ⟨.ofList compiled, ?_, ?_, fun entry mem => ?_⟩
    · rw [compile, compiles]
      rfl
    · rw [Dict.names, kept, names]
      rfl
    · obtain ⟨found, v, resolves, transforms, compiles⟩ := good entry mem
      obtain ⟨w, compilesOther, lookup⟩ := values entry mem
      rw [compiles] at compilesOther
      cases compilesOther
      refine ⟨found, v, resolves, transforms, ?_⟩
      rw [Dict.find?, kept, lookup]

end DesignSystem
