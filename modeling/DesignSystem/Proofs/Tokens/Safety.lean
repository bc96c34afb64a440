import DesignSystem.Proofs.Model.Agreement
import DesignSystem.Proofs.Number.Quotient
import DesignSystem.Proofs.Number.Rendered
import DesignSystem.Proofs.Outcome
import DesignSystem.Proofs.Json.Finite
import DesignSystem.Proofs.Tokens.Meaning
import DesignSystem.Proofs.Tokens.RemBase

/-! # Compiling accepted documents

* `Number.Overflows`: a rem value whose exact quotient is beyond the range of binary64.
* `Number.transformed_of_finite`: such a value is not rendered; every other one is.
* `compile_cases`: a ref to no core token and a rem value beyond the range are all that compiling
  can stop at.
* `Schema.compile_of_accepts`: accepted documents are decoded, and compiled up to these.
-/

namespace DesignSystem
set_option autoImplicit false

/-! ## Values under a rule -/

theorem withUnit_of_rendered {number : Number} {literal : List Char}
    (renders : number.rendered = .ok literal) (unit : String) :
    withUnit number unit = .ok (.text (.ofChars (literal ++ unit.toList))) := by
  rw [withUnit, renders]
  rfl

/-- A rem value beyond the range of binary64. -/
def Number.Overflows (number : Number) (rule : PlatformRule) : Prop :=
  rule.transform = .rem ∧
    Binary64.limit ≤ |number.quotient (rule.remBase.getD defaultRemBase)|

/-- A numeral of documents and a unit. -/
def TokenValue.IsNumeral (unit : String) (value : TokenValue) : Prop :=
  ∃ s : Json.Spelling, s.Valid ∧ value = .text (.ofChars (s.text ++ unit.toList))

theorem PlatformRule.Divisible.base {rule : PlatformRule} (divisible : rule.Divisible) :
    (rule.remBase.getD defaultRemBase).IsFinite ∧ 0 < (rule.remBase.getD defaultRemBase).value := by
  cases given : rule.remBase with
  | some base => exact divisible base given
  | none =>
    refine ⟨?_, by simp [defaultRemBase, Number.value]⟩
    change 16 < 2 ^ 1024 - 2 ^ 970
    decide +kernel

theorem Number.transformed_rem {number : Number} {rule : PlatformRule} (finite : number.IsFinite)
    (divisible : rule.Divisible) (isRem : rule.transform = .rem) :
    (¬ number.Overflows rule →
      ∃ value, number.transformed rule = .ok value ∧ value.IsNumeral "rem") ∧
    (number.Overflows rule → number.transformed rule = .error .notRenderable) := by
  -- the default base is positive too, so there is a quotient in any case
  obtain ⟨finiteBase, positive⟩ := divisible.base
  obtain ⟨q, divides, range⟩ := div_of_positive finite finiteBase positive
  have step : number.transformed rule = withUnit (.float q) "rem" := by
    simp only [transformed, isRem, divides]
    rfl
  rw [step]
  constructor
  · intro within
    have isFinite : q.isFinite = true := range.mpr (not_le.mp fun beyond => within ⟨isRem, beyond⟩)
    obtain ⟨s, valid, renders⟩ := Number.rendered_finite (n := .float q) isFinite
    exact ⟨_, withUnit_of_rendered renders "rem", s, valid, rfl⟩
  · rintro ⟨-, beyond⟩
    have infinite : q.isFinite = false :=
      Bool.eq_false_iff.mpr fun isFinite => absurd (range.mp isFinite) (not_lt.mpr beyond)
    rw [withUnit, rendered, Binary64.rendered_not_finite infinite]
    rfl

theorem Number.transformed_of_finite {number : Number} {rule : PlatformRule}
    (finite : number.IsFinite) (divisible : rule.Divisible) :
    (∃ value, number.transformed rule = .ok value) ∨
      number.transformed rule = .error .notRenderable ∧ number.Overflows rule := by
  cases kind : rule.transform with
  | px =>
    obtain ⟨s, -, renders⟩ := Number.rendered_finite finite
    left
    simp only [transformed, kind]
    exact ⟨_, withUnit_of_rendered renders "px"⟩
  | rem =>
    obtain ⟨within, beyond⟩ := transformed_rem finite divisible kind
    by_cases overflows : number.Overflows rule
    · exact .inr ⟨beyond overflows, overflows⟩
    · obtain ⟨value, transforms, -⟩ := within overflows
      exact .inl ⟨value, transforms⟩
  | number => exact .inl ⟨.number number, by simp only [transformed, kind]⟩
  | passthrough => exact .inl ⟨.number number, by simp only [transformed, kind]⟩

/-! ## Decoded models -/

/-- The numbers among the values are within the range of binary64. -/
def CoreTokens.InRange (core : CoreTokens) : Prop :=
  ∀ entry ∈ core.tokens.entries, ∀ n, entry.2.value = .number n → n.IsFinite

/-- Values can be divided by the base of each rule. -/
def PlatformRules.Divisible (platform : PlatformRules) : Prop :=
  ∀ rule ∈ platform.rules, rule.Divisible

/-- The values are parts of the document, and numbers among them are within the range. -/
theorem CoreTokens.values_of_decode {holds : Json → Prop} (inherited : Json.Inherited holds)
    {document : Json} (h : holds document) {core : CoreTokens}
    (decodes : decode document = .ok core) (shape : document.IsObject Shape.CoreTokens) :
    ∀ entry ∈ core.tokens.entries, holds entry.2.value.document ∧
      ∀ n, entry.2.value = .number n → n.IsFinite := by
  obtain ⟨fields, rfl, shape⟩ := shape
  obtain ⟨_, same, decodedTokens⟩ := CoreTokens.decode_eq_ok decodes
  cases same
  obtain ⟨_, found, tokens, rfl, each⟩ := shape.tokens
  rw [Decoded.defaulted_of_get? found] at decodedTokens
  obtain ⟨_, same, origins⟩ := Decoded.dict_eq_ok decodedTokens
  cases same
  intro entry mem
  -- the entry goes back to a field, whose value passed the check
  obtain ⟨field, listed, -, place, decoded⟩ := origins entry mem
  obtain ⟨token, isObject, tokenShape⟩ := each field listed
  have h := inherited.field (inherited.get? h found) field listed
  rw [isObject] at decoded h
  obtain ⟨_, same, decodedValue⟩ := CoreToken.decode_eq_ok decoded
  cases same
  obtain ⟨part, foundValue, accepted⟩ := tokenShape.value
  have h := inherited.get? h foundValue
  rw [Decoded.required_of_get? foundValue] at decodedValue
  rcases accepted with ⟨text, rfl⟩ | ⟨m, rfl, finite⟩
  · obtain value : TokenValue.text text = entry.2.value := Decoded.ok.inj decodedValue
    exact ⟨value ▸ h, fun n isNumber => nomatch value.trans isNumber⟩
  · obtain value : TokenValue.number m = entry.2.value := Decoded.ok.inj decodedValue
    exact ⟨value ▸ h, fun n isNumber => TokenValue.number.inj (value.trans isNumber) ▸ finite⟩

theorem CoreTokens.inRange_of_decode {document : Json} {core : CoreTokens}
    (decodes : decode document = .ok core) (shape : document.IsObject Shape.CoreTokens) :
    core.InRange := by
  have trivially : Json.Inherited fun _ => True := ⟨fun _ _ _ => trivial, fun _ _ _ => trivial⟩
  exact fun entry mem => (values_of_decode trivially trivial decodes shape entry mem).2

theorem PlatformRules.divisible_of_decode {document : Json} {platform : PlatformRules}
    (decodes : decode document = .ok platform) (shape : document.IsObject Shape.PlatformRules)
    (alone : ¬ UsesFieldName document) : platform.Divisible := by
  obtain ⟨fields, items, rfl, listed, origins⟩ := PlatformRules.origin decodes shape
  intro rule mem
  obtain ⟨item, here, part, rfl, partShape, place, decoded⟩ := exists_of_forall₂ origins mem
  exact PlatformRule.divisible_of_decode decoded partShape fun uses =>
    alone ⟨fields, items, part, rfl, listed, here, uses⟩

/-! ## Compiling -/

theorem mem_of_lastRule? {platform : PlatformRules} {token : CoreToken} {rule : PlatformRule}
    (h : platform.lastRule? token = some rule) : rule ∈ platform.rules := by
  obtain ⟨category, -, finds⟩ := Option.bind_eq_some_iff.mp h
  exact List.mem_reverse.mp (List.mem_of_find?_eq_some finds)

/-- The core value that a semantic token names overflows under the last rule for it. -/
def SemanticToken.Overflows (core : CoreTokens) (platform : PlatformRules)
    (token : SemanticToken) : Prop :=
  ∃ found number rule, core.named? token.ref = some found ∧ found.value = .number number ∧
    platform.lastRule? found = some rule ∧ number.Overflows rule

/-- Compiling ends as it does at some entry without a value, if there is one. -/
theorem compileEntries_cases {α : Type} (value : String → α → Outcome TokenValue)
    {entries : List (String × α)} (distinct : (entries.map Prod.fst).Nodup) :
    (∃ compiled, compileEntries value entries = .ok compiled) ∨
      ∃ entry ∈ entries, (value entry.1 entry.2).isOk = false ∧
        compileEntries value entries = (value entry.1 entry.2).bind fun _ => .ok [] := by
  cases finds : entries.find? fun entry => !(value entry.1 entry.2).isOk with
  | none =>
    have good : ∀ entry ∈ entries, ∃ v, value entry.1 entry.2 = .ok v := fun entry mem =>
      Outcome.exists_of_isOk (by simpa using List.find?_eq_none.mp finds entry mem)
    obtain ⟨compiled, compiles, -⟩ := compileEntries_ok distinct good
    exact .inl ⟨compiled, compiles⟩
  | some bad =>
    obtain ⟨stops, before, after, rfl, good⟩ := List.find?_eq_some_iff_append.mp finds
    have stops : (value bad.1 bad.2).isOk = false := by simpa using stops
    have good : ∀ entry ∈ before, ∃ v, value entry.1 entry.2 = .ok v := fun entry mem =>
      Outcome.exists_of_isOk (by simpa using good entry mem)
    exact .inr ⟨bad, by simp, stops, compileEntries_append good bad stops after⟩

section
variable {core : CoreTokens} {platform : PlatformRules}

theorem compileToken_cases (inRange : core.InRange) (divisible : platform.Divisible)
    (name : String) (token : SemanticToken) :
    (∃ value, compileToken core platform.ruleMap name token = .ok value) ∨
    compileToken core platform.ruleMap name token = .failed (unknownRef name token.ref) ∨
    compileToken core platform.ruleMap name token = .aborted (.number .notRenderable) ∧
      token.Overflows core platform := by
  unfold compileToken
  cases resolves : core.named? token.ref with
  | none => exact .inr (.inl rfl)
  | some found =>
    dsimp only
    rw [ruleFor_ruleMap]
    cases isValue : found.value with
    | text value => exact .inl ⟨.text value, rfl⟩
    | number number =>
      cases ruled : platform.lastRule? found with
      | none => exact .inl ⟨.number number, rfl⟩
      | some rule =>
        obtain ⟨target, -, listed⟩ := CoreTokens.named?_eq_some.mp resolves
        have finite := inRange _ listed number isValue
        rcases number.transformed_of_finite finite (divisible rule (mem_of_lastRule? ruled)) with
          ⟨value, transforms⟩ | ⟨transforms, overflows⟩
        · exact .inl ⟨value, by rw [TokenValue.transformed, transforms]⟩
        · refine .inr (.inr ⟨by rw [TokenValue.transformed, transforms], ?_⟩)
          exact ⟨found, number, rule, resolves, isValue, ruled, overflows⟩

theorem compile_cases (inRange : core.InRange) (divisible : platform.Divisible)
    (semantic : SemanticTokens) :
    (∃ compiled, compile core semantic platform = .ok compiled) ∨
    (∃ failure, compile core semantic platform = .failed failure ∧
      failure.code = .tokenRefNotFound) ∨
    compile core semantic platform = .aborted (.number .notRenderable) ∧
      ∃ entry ∈ semantic.tokens.entries, entry.2.Overflows core platform := by
  unfold compile
  rcases compileEntries_cases (compileToken core platform.ruleMap) semantic.tokens.distinct with
    ⟨compiled, compiles⟩ | ⟨entry, mem, stops, ends⟩
  · exact .inl ⟨.ofList compiled, by rw [compiles]; rfl⟩
  · rw [ends]
    rcases compileToken_cases inRange divisible entry.1 entry.2 with
      ⟨value, compiles⟩ | fails | ⟨aborts, overflows⟩
    · simp [compiles, Outcome.isOk] at stops
    · exact .inr (.inl ⟨_, by rw [fails]; rfl, rfl⟩)
    · exact .inr (.inr ⟨by rw [aborts]; rfl, entry, mem, overflows⟩)

end

namespace Schema

/-- Accepted documents, the rules among which have no base under another name, are decoded, and
compiling them gives the compiled tokens or fails for a ref to no core token, unless a rem value is
beyond the range of binary64. A rem value within the range is a numeral and its unit. -/
theorem compile_of_accepts {coreDocument semanticDocument platformDocument : Json}
    (distinctCore : coreDocument.Distinct) (distinctSemantic : semanticDocument.Distinct)
    (distinctPlatform : platformDocument.Distinct) (acceptsCore : core.Accepts coreDocument)
    (acceptsSemantic : semantic.Accepts semanticDocument)
    (acceptsPlatform : platform.Accepts platformDocument)
    (alone : ¬ PlatformRules.UsesFieldName platformDocument) :
    (∃ coreTokens semanticTokens rules, core.decode coreDocument = .ok coreTokens ∧
      semantic.decode semanticDocument = .ok semanticTokens ∧
      platform.decode platformDocument = .ok rules ∧ coreTokens.InRange ∧ rules.Divisible ∧
      ((∃ compiled, compile coreTokens semanticTokens rules = .ok compiled) ∨
        (∃ failure, compile coreTokens semanticTokens rules = .failed failure ∧
          failure.code = .tokenRefNotFound) ∨
        compile coreTokens semanticTokens rules = .aborted (.number .notRenderable) ∧
          ∃ entry ∈ semanticTokens.tokens.entries, entry.2.Overflows coreTokens rules)) ∧
    ∀ (number : Number) (rule : PlatformRule), number.IsFinite → rule.Divisible →
      rule.transform = .rem →
      (¬ number.Overflows rule →
        ∃ value, number.transformed rule = .ok value ∧ value.IsNumeral "rem") ∧
      (number.Overflows rule → number.transformed rule = .error .notRenderable) := by
  have shapeCore := (Check.coreTokens_decides coreDocument).mp (accepts_guarded acceptsCore)
  have shapeSemantic :=
    (Check.semanticTokens_decides semanticDocument).mp (accepts_total acceptsSemantic)
  have shapePlatform :=
    (Check.platformRules_decides platformDocument).mp (accepts_guarded acceptsPlatform)
  obtain ⟨coreTokens, decodedCore, -⟩ := CoreTokens.decode_of_shape distinctCore shapeCore
  obtain ⟨semanticTokens, decodedSemantic, -⟩ :=
    SemanticTokens.decode_of_shape distinctSemantic shapeSemantic
  obtain ⟨rules, decodedRules, -⟩ :=
    PlatformRules.decode_of_shape distinctPlatform shapePlatform alone
  have inRange := CoreTokens.inRange_of_decode decodedCore shapeCore
  have divisible := PlatformRules.divisible_of_decode decodedRules shapePlatform alone
  exact ⟨⟨coreTokens, semanticTokens, rules, decodedCore, decodedSemantic, decodedRules, inRange,
    divisible, compile_cases inRange divisible semanticTokens⟩,
    fun _ _ finite divisible isRem => Number.transformed_rem finite divisible isRem⟩

def sizeTokens (value : Number) : Json :=
  .object [("tokens", .object [("size", .object [("value", .number value),
    ("category", .string "fontSize")])])]

def sizeTheme : Json :=
  .object [("$theme", .string "light"), ("tokens", .object [("body", .object [
    ("ref", .string "size")])])]

def sizeRules (base : Number) : Json :=
  .object [("$platform", .string "web"), ("rules", .array [.object [
    ("category", .string "fontSize"), ("transform", .string "rem"), ("remBase", .number base)]])]

/-- The binary64 number `10 ^ exponent`. -/
def powerOfTen (exponent : ℤ) : Number := .float (.ofDecimal false 1 exponent)

/-- What compiling a size in rem stops on. -/
def sizeAbort? (value base : Number) : Option Abort :=
  match core.decode (sizeTokens value), semantic.decode sizeTheme,
    platform.decode (sizeRules base) with
  | .ok coreTokens, .ok semanticTokens, .ok rules =>
    match compile coreTokens semanticTokens rules with
    | .aborted abort => some abort
    | _ => none
  | _, _, _ => none

theorem not_usesFieldName_sizeRules (base : Number) :
    ¬ PlatformRules.UsesFieldName (sizeRules base) := by
  rintro ⟨fields, rules, rule, same, found, mem, -, there⟩
  cases same
  cases found
  cases List.mem_singleton.mp mem
  cases there

theorem compile_of_accepts_tenth :
    core.Accepts (sizeTokens (powerOfTen 307)) ∧ semantic.Accepts sizeTheme ∧
    platform.Accepts (sizeRules (powerOfTen (-1))) ∧
    ∃ coreTokens semanticTokens rules, core.decode (sizeTokens (powerOfTen 307)) = .ok coreTokens ∧
      semantic.decode sizeTheme = .ok semanticTokens ∧
      platform.decode (sizeRules (powerOfTen (-1))) = .ok rules ∧
      ((∃ compiled, compile coreTokens semanticTokens rules = .ok compiled) ∨
        ∃ failure, compile coreTokens semanticTokens rules = .failed failure ∧
          failure.code = .tokenRefNotFound) := by
  have acceptsCore : core.Accepts (sizeTokens (powerOfTen 307)) :=
    ⟨_, core_check (by decide +kernel), by decide +kernel⟩
  have acceptsSemantic : semantic.Accepts sizeTheme := ⟨_, rfl, by decide⟩
  have acceptsPlatform : platform.Accepts (sizeRules (powerOfTen (-1))) :=
    ⟨_, platform_check (by decide +kernel), by decide +kernel⟩
  obtain ⟨⟨coreTokens, semanticTokens, rules, decodedCore, decodedSemantic, decodedRules, -, -,
    ends⟩, -⟩ := compile_of_accepts (show (sizeTokens (powerOfTen 307)).Distinct by decide)
      (show sizeTheme.Distinct by decide) (show (sizeRules (powerOfTen (-1))).Distinct by decide)
      acceptsCore acceptsSemantic acceptsPlatform (not_usesFieldName_sizeRules _)
  refine ⟨acceptsCore, acceptsSemantic, acceptsPlatform, coreTokens, semanticTokens, rules,
    decodedCore, decodedSemantic, decodedRules, ?_⟩
  have noAbort : sizeAbort? (powerOfTen 307) (powerOfTen (-1)) = none := by decide +kernel
  unfold sizeAbort? at noAbort
  simp only [decodedCore, decodedSemantic, decodedRules] at noAbort
  rcases ends with compiles | fails | ⟨aborts, -⟩
  · exact .inl compiles
  · exact .inr fails
  · simp [aborts] at noAbort

/-- The quotient of two numbers that are accepted can be infinite, and is not rendered then. -/
theorem compile_of_accepts_infinite :
    core.Accepts (sizeTokens (powerOfTen 308)) ∧ semantic.Accepts sizeTheme ∧
    platform.Accepts (sizeRules (powerOfTen (-1))) ∧
    ¬ PlatformRules.UsesFieldName (sizeRules (powerOfTen (-1))) ∧
    ∃ coreTokens semanticTokens rules, core.decode (sizeTokens (powerOfTen 308)) = .ok coreTokens ∧
      semantic.decode sizeTheme = .ok semanticTokens ∧
      platform.decode (sizeRules (powerOfTen (-1))) = .ok rules ∧
      compile coreTokens semanticTokens rules = .aborted (.number .notRenderable) := by
  refine ⟨⟨_, core_check (by decide +kernel), by decide +kernel⟩, ⟨_, rfl, by decide⟩,
    ⟨_, platform_check (by decide +kernel), by decide +kernel⟩, not_usesFieldName_sizeRules _, ?_⟩
  have aborts : sizeAbort? (powerOfTen 308) (powerOfTen (-1)) = some (.number .notRenderable) := by
    decide +kernel
  unfold sizeAbort? at aborts
  split at aborts
  · next coreTokens semanticTokens rules decodedCore decodedSemantic decodedRules =>
    refine ⟨coreTokens, semanticTokens, rules, decodedCore, decodedSemantic, decodedRules, ?_⟩
    split at aborts
    · next abort stops => rw [stops, Option.some.inj aborts]
    · cases aborts
  · cases aborts

end Schema
end DesignSystem
