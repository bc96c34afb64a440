import DesignSystem.Proofs.Tokens.Meaning
import Mathlib.Data.List.Perm.Basic

/-! # What compiling depends on

* `SemanticTokens.AgreeOn`: core tokens with the same values and categories for all refs.
* `PlatformRules.Alike`: rules whose last rules for each category do the same.
* `Rearranged`: rules of which shadowed ones are left out, and neighbours of different categories
  change places.
* `compile_depends`: compiling depends on core tokens and rules no further than up to these.
-/

namespace DesignSystem
set_option autoImplicit false

/-! ## Core tokens -/

/-- The value and the category of a core token, if it is there. -/
def CoreTokens.source? (core : CoreTokens) (ref : Text) :
    Option (TokenValue × Option Category) :=
  (core.named? ref).map fun token => (token.value, token.category)

namespace SemanticTokens

/-- Whether a core token is named by a ref. -/
def refersTo (semantic : SemanticTokens) (name : String) : Bool :=
  semantic.tokens.entries.any (·.2.ref == name)

/-- Two sets of core tokens give the same value and category, or none, for each ref. -/
def AgreeOn (semantic : SemanticTokens) (core other : CoreTokens) : Prop :=
  ∀ entry ∈ semantic.tokens.entries, core.source? entry.2.ref = other.source? entry.2.ref

end SemanticTokens

/-- The order of entries with distinct names has no part in what is found. -/
theorem lookup_perm {α : Type} {entries others : List (String × α)} (perm : entries.Perm others)
    (distinct : (entries.map Prod.fst).Nodup) (name : String) :
    entries.lookup name = others.lookup name := by
  have distinct' : (others.map Prod.fst).Nodup := (perm.map Prod.fst).nodup_iff.mp distinct
  refine Option.ext fun value => ⟨fun found => ?_, fun found => ?_⟩
  · exact lookup_of_mem distinct' (perm.mem_iff.mp (mem_of_lookup found))
  · exact lookup_of_mem distinct (perm.mem_iff.mpr (mem_of_lookup found))

theorem lookup_filter {α : Type} (entries : List (String × α)) {keep : String → Bool}
    {name : String} (kept : keep name = true) :
    (entries.filter (keep ·.1)).lookup name = entries.lookup name := by
  induction entries with
  | nil => rfl
  | cons entry rest ih =>
    by_cases same : name = entry.1
    · have here : keep entry.1 = true := same ▸ kept
      rw [List.filter_cons, if_pos here, List.lookup_cons, List.lookup_cons, same, beq_self_eq_true]
    · rw [List.lookup_cons, beq_eq_false_iff_ne.mpr same, List.filter_cons]
      split
      · rw [List.lookup_cons, beq_eq_false_iff_ne.mpr same, ih]
      · exact ih

/-- Core tokens without a ref to them may come and go, and all may be in any order. -/
theorem SemanticTokens.agreeOn_of_perm {semantic : SemanticTokens} {core other : CoreTokens}
    (perm : (core.tokens.entries.filter (semantic.refersTo ·.1)).Perm
      (other.tokens.entries.filter (semantic.refersTo ·.1))) : semantic.AgreeOn core other := by
  intro entry mem
  cases named : entry.2.ref.string? with
  | none => simp only [CoreTokens.source?, CoreTokens.named?, named, Option.bind_none]
  | some name =>
  have refers : semantic.refersTo name = true := List.any_eq_true.mpr
    ⟨entry, mem, beq_iff_eq.mpr (Text.string?_eq_some_iff.mp named)⟩
  have distinct : ((core.tokens.entries.filter (semantic.refersTo ·.1)).map Prod.fst).Nodup :=
    core.tokens.distinct.sublist (List.filter_sublist.map Prod.fst)
  simp only [CoreTokens.source?, CoreTokens.named?, named, Option.bind_some]
  rw [Dict.find?, Dict.find?, ← lookup_filter core.tokens.entries refers, lookup_perm perm distinct,
    lookup_filter other.tokens.entries refers]

/-! ## Rules -/

/-- What a rule does with numbers. -/
def PlatformRule.effect (rule : PlatformRule) : Transform × Option Number :=
  (rule.transform, rule.remBase)

namespace PlatformRules

/-- The last rule for a category. -/
def lastFor? (platform : PlatformRules) (category : Text) : Option PlatformRule :=
  platform.rules.reverse.find? (·.category = category)

/-- The last rules for each category have the same transform and the same base, or there are none. -/
def Alike (platform other : PlatformRules) : Prop :=
  ∀ category : Category, (platform.lastFor? (Vocabulary.word category)).map PlatformRule.effect =
    (other.lastFor? (Vocabulary.word category)).map PlatformRule.effect

theorem lastRule?_eq_bind (platform : PlatformRules) (token : CoreToken) :
    platform.lastRule? token =
      token.category.bind fun category => platform.lastFor? (Vocabulary.word category) := rfl

end PlatformRules

/-- Rules that come from others by leaving out such as a later rule for their category shadows, and
by changes of place between neighbours of different categories. -/
inductive Rearranged : List PlatformRule → List PlatformRule → Prop where
  | refl (rules : List PlatformRule) : Rearranged rules rules
  | delete {before after rules : List PlatformRule} {rule : PlatformRule}
      (shadowed : ∃ later ∈ after, later.category = rule.category)
      (rest : Rearranged (before ++ after) rules) : Rearranged (before ++ rule :: after) rules
  | swap {before after rules : List PlatformRule} {first second : PlatformRule}
      (apart : first.category ≠ second.category)
      (rest : Rearranged (before ++ second :: first :: after) rules) :
      Rearranged (before ++ first :: second :: after) rules

theorem find?_reverse_delete {before after : List PlatformRule} {rule : PlatformRule}
    (shadowed : ∃ later ∈ after, later.category = rule.category) (category : Text) :
    (before ++ rule :: after).reverse.find? (·.category = category) =
      (before ++ after).reverse.find? (·.category = category) := by
  by_cases same : rule.category = category
  · -- the later rule is found before the one that it shadows
    obtain ⟨later, mem, shadows⟩ := shadowed
    have found : (after.reverse.find? (·.category = category)).isSome = true := by
      rw [List.find?_isSome]
      exact ⟨later, List.mem_reverse.mpr mem, by simp [shadows, same]⟩
    obtain ⟨last, isLast⟩ := Option.isSome_iff_exists.mp found
    simp [List.find?_append, isLast]
  · simp [List.find?_append, same]

theorem find?_reverse_swap {before after : List PlatformRule} {first second : PlatformRule}
    (apart : first.category ≠ second.category) (category : Text) :
    (before ++ first :: second :: after).reverse.find? (·.category = category) =
      (before ++ second :: first :: after).reverse.find? (·.category = category) := by
  by_cases same : first.category = category
  · have other : second.category ≠ category := fun e => apart (same.trans e.symm)
    simp [List.find?_append, same, other]
  · simp [List.find?_append, List.find?_cons, same]

theorem Rearranged.lastFor? {rules others : List PlatformRule} (rearranged : Rearranged rules others)
    (category : Text) : rules.reverse.find? (·.category = category) =
      others.reverse.find? (·.category = category) := by
  induction rearranged with
  | refl => rfl
  | delete shadowed _ ih => rw [find?_reverse_delete shadowed, ih]
  | swap apart _ ih => rw [find?_reverse_swap apart, ih]

/-- A last rule stays the last one. -/
theorem PlatformRules.alike_of_rearranged {platform other : PlatformRules}
    (rearranged : Rearranged platform.rules other.rules) : platform.Alike other := by
  intro category
  rw [PlatformRules.lastFor?, PlatformRules.lastFor?, rearranged.lastFor?]

/-! ## Tokens -/

/-- A value under a rule depends on the rule's transform and base alone. -/
theorem TokenValue.transformed_congr (value : TokenValue) {rule other : Option PlatformRule}
    (same : rule.map PlatformRule.effect = other.map PlatformRule.effect) :
    value.transformed rule = value.transformed other := by
  cases value with
  | text text => cases rule <;> cases other <;> rfl
  | number n =>
    cases rule with
    | none =>
      cases other with
      | none => rfl
      | some other => cases same
    | some rule =>
      cases other with
      | none => cases same
      | some other =>
        rw [Option.map_some, Option.map_some, Option.some.injEq, PlatformRule.effect,
          PlatformRule.effect, Prod.mk.injEq] at same
        simp only [transformed, Number.transformed, same.1, same.2]

theorem compileToken_congr {core other : CoreTokens} {platform rules : PlatformRules}
    (alike : platform.Alike rules) (name : String) {token : SemanticToken}
    (agree : core.source? token.ref = other.source? token.ref) :
    compileToken core platform.ruleMap name token = compileToken other rules.ruleMap name token := by
  unfold CoreTokens.source? at agree
  simp only [compileToken, ruleFor_ruleMap, PlatformRules.lastRule?_eq_bind]
  cases here : core.named? token.ref with
  | none =>
    rw [here, Option.map_none] at agree
    rw [Option.map_eq_none_iff.mp agree.symm]
  | some found =>
    rw [here, Option.map_some] at agree
    obtain ⟨twin, there, same⟩ := Option.map_eq_some_iff.mp agree.symm
    rw [Prod.mk.injEq] at same
    simp only [there, same.1, same.2]
    rw [TokenValue.transformed_congr]
    cases found.category with
    | none => rfl
    | some category => exact alike category

theorem compileEntries_congr {α : Type} {value other : String → α → Outcome TokenValue}
    {entries : List (String × α)}
    (same : ∀ entry ∈ entries, value entry.1 entry.2 = other entry.1 entry.2) :
    compileEntries value entries = compileEntries other entries := by
  induction entries with
  | nil => rfl
  | cons entry rest ih =>
    rw [List.forall_mem_cons] at same
    rw [compileEntries, compileEntries, same.1, ih same.2]

/-! ## Compiling -/

/-- Of core tokens, compiling depends on the values and categories of those that refs name, and of
rules, on what the last one for each category does. So tokens without a ref to them, the order of
core tokens, shadowed rules and the order of rules for different categories have no part in it. -/
theorem compile_depends (semantic : SemanticTokens) (core other : CoreTokens)
    (platform rules : PlatformRules) :
    (semantic.AgreeOn core other → platform.Alike rules →
      compile core semantic platform = compile other semantic rules) ∧
    ((core.tokens.entries.filter (semantic.refersTo ·.1)).Perm
        (other.tokens.entries.filter (semantic.refersTo ·.1)) →
      Rearranged platform.rules rules.rules →
      compile core semantic platform = compile other semantic rules) := by
  have depends : semantic.AgreeOn core other → platform.Alike rules →
      compile core semantic platform = compile other semantic rules := fun agree alike => by
    rw [compile, compile, compileEntries_congr fun entry mem =>
      compileToken_congr alike entry.1 (agree entry mem)]
  exact ⟨depends, fun perm rearranged =>
    depends (SemanticTokens.agreeOn_of_perm perm) (PlatformRules.alike_of_rearranged rearranged)⟩

/-- A ref to a size, and a ref to no core token. -/
def sizeAndGhost : SemanticTokens :=
  ⟨none, none, .light, .ofList [("gap", ⟨"md", none⟩), ("edge", ⟨"ghost", none⟩)]⟩

def sizedCore (entries : List (String × CoreToken)) : CoreTokens := ⟨none, none, .ofList entries⟩

def sizeToken (description : Option Text) : CoreToken :=
  ⟨.number (.int 8), some .spacing, description⟩

def inkToken : CoreToken := ⟨.text "#111", some .color, none⟩

def webRules (rules : List PlatformRule) : PlatformRules := ⟨none, none, .web, rules⟩

def remRule : PlatformRule := ⟨"spacing", .rem, some (.int 4)⟩

def pxRule : PlatformRule := ⟨"spacing", .px, none⟩

def typeRule : PlatformRule := ⟨"fontSize", .rem, none⟩

/-- A rule for no category that core tokens may have. -/
def strayRule : PlatformRule := ⟨"depth", .px, none⟩

theorem compile_depends_rearranged :
    (sizeAndGhost.AgreeOn (sizedCore [("md", sizeToken none)])
        (sizedCore [("ink", inkToken), ("md", sizeToken (some "gap"))]) ∧
      (webRules [remRule, pxRule]).Alike (webRules [pxRule, strayRule]) ∧
      compile (sizedCore [("md", sizeToken none)]) sizeAndGhost (webRules [remRule, pxRule]) =
        compile (sizedCore [("ink", inkToken), ("md", sizeToken (some "gap"))]) sizeAndGhost
          (webRules [pxRule, strayRule])) ∧
    ((((sizedCore [("md", sizeToken none), ("ink", inkToken)]).tokens.entries.filter
        (sizeAndGhost.refersTo ·.1)).Perm
          ((sizedCore [("md", sizeToken none)]).tokens.entries.filter
            (sizeAndGhost.refersTo ·.1))) ∧
      Rearranged [remRule, typeRule, pxRule] [pxRule, typeRule] ∧
      compile (sizedCore [("md", sizeToken none), ("ink", inkToken)]) sizeAndGhost
          (webRules [remRule, typeRule, pxRule]) =
        compile (sizedCore [("md", sizeToken none)]) sizeAndGhost
          (webRules [pxRule, typeRule])) := by
  have agree : sizeAndGhost.AgreeOn (sizedCore [("md", sizeToken none)])
      (sizedCore [("ink", inkToken), ("md", sizeToken (some "gap"))]) := by
    unfold SemanticTokens.AgreeOn
    decide +kernel
  have alike : (webRules [remRule, pxRule]).Alike (webRules [pxRule, strayRule]) := by
    intro category
    cases category <;> decide +kernel
  have perm : ((sizedCore [("md", sizeToken none), ("ink", inkToken)]).tokens.entries.filter
      (sizeAndGhost.refersTo ·.1)).Perm
        ((sizedCore [("md", sizeToken none)]).tokens.entries.filter
          (sizeAndGhost.refersTo ·.1)) := .refl _
  have swapped : Rearranged ([] ++ typeRule :: pxRule :: []) [pxRule, typeRule] :=
    .swap (by decide) (.refl _)
  have rearranged : Rearranged ([] ++ remRule :: [typeRule, pxRule]) [pxRule, typeRule] :=
    .delete ⟨pxRule, by simp, rfl⟩ swapped
  exact ⟨⟨agree, alike, (compile_depends _ _ _ _ _).1 agree alike⟩,
    perm, rearranged, (compile_depends _ _ _ _ _).2 perm rearranged⟩

end DesignSystem
