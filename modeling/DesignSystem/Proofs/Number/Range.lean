import DesignSystem.Json.Basic
import DesignSystem.Proofs.Number.Rounding

/-! # The range of binary64

* `Number.value`: the rational number that a number is.
* `Number.IsFinite`: the numbers within the range of the format.
* `Binary64.ofInt_isFinite`: the integers that have a finite binary64 number nearest to them.
* `Json.isNumber_iff`, `Json.isPositive_iff`: the finite numbers among documents, and the positive
  ones among these.
* `Json.integersInRange`: whether the integers of a document, at any depth, are within the range.
-/

namespace DesignSystem
set_option autoImplicit false

/-- The value of a finite number; infinities and NaN have none. -/
def Binary64.value : Binary64 → ℚ
  | finite negative significand exponent _ =>
    (if negative then -1 else 1) * ((significand : ℚ) * 2 ^ exponent)
  | _ => 0

namespace Number

def value : Number → ℚ
  | int n => n
  | float x => x.value

/-- A number within the range of the format. Integers that are not below `2 ^ 1024 - 2 ^ 970` in
magnitude are rounded to infinity. -/
def IsFinite : Number → Prop
  | int n => n.natAbs < 2 ^ 1024 - 2 ^ 970
  | float x => x.isFinite = true

end Number

namespace Binary64

/-! ## Integers -/

/-- Below an even number lies what is nearer to smaller numbers; half-way it is rounded up. -/
theorem roundHalfEven_lt_even (num : ℕ) {den k : ℕ} (hd : 0 < den) :
    roundHalfEven num den < 2 * k ↔ 2 * num + den < 2 * (2 * k) * den := by
  have split := Nat.div_add_mod num den
  have rest := Nat.mod_lt num hd
  unfold roundHalfEven
  set quotient := num / den
  set remainder := num % den
  rcases lt_trichotomy (quotient + 1) (2 * k) with below | last | above
  · have room : (quotient + 2) * den ≤ 2 * k * den := Nat.mul_le_mul_right den below
    constructor
    · intro _
      nlinarith
    · intro _
      dsimp only
      split_ifs <;> omega
  · have room : (quotient + 1) * den = 2 * k * den := by rw [last]
    have odd : quotient % 2 = 1 := by omega
    dsimp only
    constructor
    · intro lt
      have small : 2 * remainder < den := by
        by_contra large
        split_ifs at lt <;> omega
      nlinarith
    · intro lt
      have small : 2 * remainder < den := by nlinarith
      rw [if_pos small]
      omega
  · have room : 2 * k * den ≤ quotient * den := Nat.mul_le_mul_right den (by omega)
    constructor
    · intro lt
      dsimp only at lt
      split_ifs at lt <;> omega
    · intro lt
      nlinarith

theorem isFinite_ofParts (negative : Bool) {significand : ℕ} {exponent : ℤ} :
    (ofParts negative significand exponent).isFinite = true ↔ Canonical significand exponent := by
  unfold ofParts
  split <;> simp_all [isFinite]

theorem le_roundHalfEven (num den : ℕ) :
    num / den ≤ roundHalfEven num den ∧ roundHalfEven num den ≤ num / den + 1 := by
  unfold roundHalfEven
  dsimp only
  split_ifs <;> omega

/-- At the exponent of a fraction its significand has 53 bits, or is carried to the 54th. -/
theorem significand_bounds {num den : ℕ} (hn : 0 < num) (hd : 0 < den) {significand : ℕ}
    (rounded : significand = roundHalfEven (scaled num den (exponentOf num den)).1
      (scaled num den (exponentOf num den)).2) :
    significand ≤ 2 ^ 53 ∧ (2 ^ 52 ≤ significand ∨ exponentOf num den = -1074) := by
  have spec := exponentOf_isExponent hn hd
  obtain ⟨lower, upper⟩ := le_roundHalfEven (scaled num den (exponentOf num den)).1
    (scaled num den (exponentOf num den)).2
  rw [← rounded] at lower upper
  have below := (scaled_div_lt (exponentOf num den) hd).mpr spec.below
  refine ⟨upper.trans (Nat.succ_le_of_lt below), spec.top.imp_left fun top => le_trans ?_ lower⟩
  have pos : (0 : ℚ) < (scaled num den (exponentOf num den)).2 := by
    exact_mod_cast scaled_den_pos num (exponentOf num den) hd
  rw [Nat.le_div_iff_mul_le (scaled_den_pos num _ hd)]
  have ratio : (2 : ℚ) ^ 52 ≤ (scaled num den (exponentOf num den)).1 /
      (scaled num den (exponentOf num den)).2 := by
    rwa [scaled_ratio, le_div_iff₀ (by positivity)]
  rw [le_div_iff₀ pos] at ratio
  exact_mod_cast ratio

/-- A fraction has a finite nearest number if it is below the point half-way between the greatest
number of the format and the next power of two. -/
theorem ofRatio_isFinite (negative : Bool) {num den : ℕ} (hd : 0 < den) :
    (ofRatio negative num den).isFinite = true ↔
      (num : ℚ) / den < (2 ^ 54 - 1) * 2 ^ (970 : ℤ) := by
  by_cases hn : num = 0
  · have range : (0 : ℚ) < (2 ^ 54 - 1) * 2 ^ (970 : ℤ) := by positivity
    simp only [ofRatio, hn, if_true, zero, isFinite, Nat.cast_zero, zero_div, range]
  have spec := exponentOf_isExponent (Nat.pos_of_ne_zero hn) hd
  have scale := scaled_ratio num den (exponentOf num den)
  have pos := scaled_den_pos num (exponentOf num den) hd
  have carried := roundHalfEven_lt_even (scaled num den (exponentOf num den)).1 (k := 2 ^ 52) pos
  simp only [ofRatio, hn, if_false]
  generalize rounded : roundHalfEven (scaled num den (exponentOf num den)).1
    (scaled num den (exponentOf num den)).2 = significand at carried ⊢
  obtain ⟨bound, top⟩ := significand_bounds (Nat.pos_of_ne_zero hn) hd rounded.symm
  generalize scaled num den (exponentOf num den) = part at scale pos carried
  generalize exponentOf num den = exponent at spec top scale ⊢
  have finite : (if significand = Nat.pow 2 53 then ofParts negative (Nat.pow 2 52) (exponent + 1)
      else ofParts negative significand exponent).isFinite = true ↔
      exponent < 971 ∨ exponent = 971 ∧ significand < 2 * 2 ^ 52 := by
    have least := spec.least
    split <;> rw [isFinite_ofParts, Canonical] <;> simp only [Nat.pow_eq] at * <;> omega
  rw [finite]
  have positive : (0 : ℚ) < 2 ^ (970 : ℤ) := by positivity
  have low : exponent < 971 → (2 : ℚ) ^ exponent ≤ 2 ^ (970 : ℤ) := fun h =>
    two_zpow_le.mpr (by omega)
  have double : (2 : ℚ) ^ (971 : ℤ) = 2 * 2 ^ (970 : ℤ) := zpow_one_add₀ two_ne_zero 970
  have high : 971 < exponent → 2 * (2 * (2 : ℚ) ^ (970 : ℤ)) ≤ 2 ^ exponent := fun h => by
    rw [← double, ← zpow_one_add₀ two_ne_zero]
    exact two_zpow_le.mpr (by omega)
  have below := spec.below
  -- the power is kept as a letter, so that arithmetic does not write it out
  generalize (2 : ℚ) ^ (970 : ℤ) = unit at positive low double high ⊢
  rcases lt_trichotomy exponent 971 with small | last | large
  · have room := low small
    have range : (num : ℚ) / den < (2 ^ 54 - 1) * unit := by
      linarith only [below, room, positive]
    simp [small, range]
  · subst last
    have pos' : (0 : ℚ) < part.2 := by exact_mod_cast pos
    have value : (num : ℚ) / den = part.1 / part.2 * (2 * unit) := by
      rw [scale, double, div_mul_cancel₀ _ (by positivity)]
    have cross : 2 * part.1 + part.2 < 2 * (2 * 2 ^ 52) * part.2 ↔
        (2 * part.1 + part.2 : ℚ) < 2 * (2 * 2 ^ 52) * part.2 := by norm_cast
    have range : (num : ℚ) / den < (2 ^ 54 - 1) * unit ↔
        (2 * part.1 + part.2 : ℚ) < 2 * (2 * 2 ^ 52) * part.2 := by
      rw [value, ← mul_assoc, mul_lt_mul_iff_left₀ positive, div_mul_eq_mul_div,
        div_lt_iff₀ pos']
      constructor <;> intro lt <;> linarith
    rw [range, ← cross, ← carried]
    simp
  · have room := high large
    have outside : ¬ ((num : ℚ) / den < (2 ^ 54 - 1) * unit) := by
      rcases spec.top with top | least
      · linarith only [top, room, positive]
      · omega
    simp only [outside, iff_false]
    omega

theorem ofInt_isFinite (n : ℤ) :
    (ofInt n).isFinite = true ↔ n.natAbs < 2 ^ 1024 - 2 ^ 970 := by
  have bound : ((2 ^ 1024 - 2 ^ 970 : ℕ) : ℚ) = (2 ^ 54 - 1) * 2 ^ (970 : ℤ) := by
    have split : (2 ^ 1024 - 2 ^ 970 : ℕ) = (2 ^ 54 - 1) * 2 ^ 970 := by
      rw [Nat.sub_mul, ← Nat.pow_add, Nat.one_mul]
    rw [split, Nat.cast_mul, Nat.cast_pow, zpow_ofNat]
    norm_num
  rw [ofInt, ofRatio_isFinite _ Nat.one_pos, Nat.cast_one, div_one, ← bound, Nat.cast_lt]

/-! ## Positive numbers -/

theorem isPositive_iff {x : Binary64} (finite : x.isFinite = true) :
    x.isPositive = true ↔ 0 < x.value := by
  cases x with
  | nan => cases finite
  | infinity negative => cases finite
  | finite negative significand exponent _ =>
    have two : (0 : ℚ) < 2 ^ exponent := by positivity
    cases negative with
    | true =>
      have below : -((significand : ℚ) * 2 ^ exponent) ≤ 0 := neg_nonpos.mpr (by positivity)
      simpa [isPositive, value] using below
    | false => simp [isPositive, value, two, Nat.pos_iff_ne_zero]

end Binary64

/-! ## Numbers of documents -/

theorem Number.isFinite_iff (n : Number) :
    n.IsFinite ↔ ∃ x, n.toFloat = .ok x ∧ x.isFinite = true := by
  cases n with
  | int n =>
    rw [IsFinite, ← Binary64.ofInt_isFinite, toFloat]
    by_cases finite : (Binary64.ofInt n).isFinite = true <;> simp [finite]
  | float x => simp [IsFinite, toFloat]

namespace Json

theorem isNumber_iff {document : Json} :
    document.isNumber = true ↔ ∃ n : Number, document = .number n ∧ n.IsFinite := by
  cases document with
  | number n =>
    simp only [number.injEq, exists_eq_left', Number.isFinite_iff, isNumber]
    cases n.toFloat <;> simp [Except.toOption]
  | _ => simp [isNumber]

theorem isPositive_iff {n : Number} (finite : n.IsFinite) :
    (number n).isPositive = true ↔ 0 < n.value := by
  cases n with
  | int n => simp [isPositive, Number.value]
  | float x => exact Binary64.isPositive_iff finite

mutual

/-- Whether the integers of a document, at any depth, are within the range of the format. -/
def integersInRange : Json → Bool
  | number (.int n) => n.natAbs < 2 ^ 1024 - 2 ^ 970
  | array items => itemsInRange items
  | object fields => fieldsInRange fields
  | _ => true

def itemsInRange : List Json → Bool
  | [] => true
  | item :: items => integersInRange item && itemsInRange items

def valueInRange : String × Json → Bool
  | (_, value) => integersInRange value

def fieldsInRange : List (String × Json) → Bool
  | [] => true
  | field :: fields => valueInRange field && fieldsInRange fields

end

theorem integersInRange_array {items : List Json} :
    (array items).integersInRange = true ↔ ∀ item ∈ items, item.integersInRange = true := by
  rw [integersInRange]
  induction items with
  | nil => simp [itemsInRange]
  | cons item items ih => simp [itemsInRange, ih]

theorem integersInRange_object {fields : Fields} :
    (object fields).integersInRange = true ↔
      ∀ field ∈ fields, field.2.integersInRange = true := by
  rw [integersInRange]
  induction fields with
  | nil => simp [fieldsInRange]
  | cons field fields ih =>
    obtain ⟨name, value⟩ := field
    rw [fieldsInRange, Bool.and_eq_true, ih, List.forall_mem_cons, valueInRange]

theorem isOversized_eq_false {document : Json} (inRange : document.integersInRange = true) :
    document.isOversized = false := by
  cases document with
  | number n =>
    cases n with
    | int n =>
      have finite : (Binary64.ofInt n).isFinite = true := by
        rw [integersInRange] at inRange
        exact (Binary64.ofInt_isFinite n).mpr (of_decide_eq_true inRange)
      simp [isOversized, Number.toFloat, finite, Except.toOption]
    | float x => rfl
  | _ => rfl

end Json
end DesignSystem
