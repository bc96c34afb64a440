/-! # Binary64 numbers as exact values

A finite binary64 number is a sign, a significand and a power of two, kept in the one form the
format allows; the two zeros differ in their sign alone.

* `Binary64.Canonical`: the pairs of significand and exponent that the format has.
* `Binary64.ofRatio`: the binary64 number nearest to a fraction, a tie going to the even
  significand.
* `Binary64.ofInt`, `Binary64.ofDecimal`: the readings of integers and of decimals.
* `Binary64.fraction`: the exact magnitude of a finite number.
-/

namespace DesignSystem
set_option autoImplicit false

/-! ## Representation -/

/-- The significand and exponent pairs of finite numbers: 53 bits, the top one set unless the
exponent is the least. -/
def Binary64.Canonical (significand : Nat) (exponent : Int) : Prop :=
  significand < Nat.pow 2 53 ∧ -1074 ≤ exponent ∧ exponent ≤ 971 ∧
    (Nat.pow 2 52 ≤ significand ∨ exponent = -1074)

instance (significand : Nat) (exponent : Int) :
    Decidable (Binary64.Canonical significand exponent) :=
  inferInstanceAs (Decidable (_ ∧ _ ∧ _ ∧ (_ ∨ _)))

/-- A binary64 number; a finite one is worth `significand * 2 ^ exponent`, with its sign. -/
inductive Binary64 where
  | nan
  | infinity (negative : Bool)
  | finite (negative : Bool) (significand : Nat) (exponent : Int)
      (canonical : Binary64.Canonical significand exponent)
  deriving DecidableEq

namespace Binary64

def zero (negative : Bool) : Binary64 := finite negative 0 (-1074) (by decide)

/-- The finite number with these parts; parts that the format lacks overflow to infinity. -/
def ofParts (negative : Bool) (significand : Nat) (exponent : Int) : Binary64 :=
  if h : Canonical significand exponent then finite negative significand exponent h
  else infinity negative

/-- The sign, that of NaN being positive. -/
def isNegative : Binary64 → Bool
  | nan => false
  | infinity negative => negative
  | finite negative .. => negative

def isFinite : Binary64 → Bool
  | finite .. => true
  | _ => false

def isZero : Binary64 → Bool
  | finite _ significand .. => significand == 0
  | _ => false

def isPositive : Binary64 → Bool
  | nan => false
  | infinity negative => !negative
  | finite negative significand .. => !negative && significand != 0

/-! ## Rounding -/

/-- The whole number nearest to `num / den`, a tie going to the even neighbour. -/
def roundHalfEven (num den : Nat) : Nat :=
  let quotient := num / den
  let rest := num % den
  if 2 * rest < den then quotient
  else if den < 2 * rest then quotient + 1
  else quotient + quotient % 2

/-- The fraction `num / den` divided by a power of two. -/
def scaled (num den : Nat) : Int → Nat × Nat
  | .ofNat k => (num, den * Nat.pow 2 k)
  | .negSucc k => (num * Nat.pow 2 (k + 1), den)

/-- The exponent at which `num / den` has a significand of 53 bits, or the least exponent. -/
def exponentOf (num den : Nat) : Int :=
  let exponent : Int := max ((num.log2 : Int) - den.log2 - 53) (-1074)
  let part := scaled num den exponent
  if part.1 / part.2 < Nat.pow 2 53 then exponent else exponent + 1

/-- The binary64 number nearest to `num / den` with a sign; infinite when every finite one is
too small. -/
def ofRatio (negative : Bool) (num den : Nat) : Binary64 :=
  if num = 0 then zero negative
  else
    let exponent := exponentOf num den
    let part := scaled num den exponent
    let significand := roundHalfEven part.1 part.2
    if significand = Nat.pow 2 53 then ofParts negative (Nat.pow 2 52) (exponent + 1)
    else ofParts negative significand exponent

/-! ## Readings -/

def ofInt (value : Int) : Binary64 := ofRatio (value < 0) value.natAbs 1

/-- The number nearest to `digits * 10 ^ exponent` with a sign. Exponents that leave the range of
the format whatever the digits are settled without their power of ten. -/
def ofDecimal (negative : Bool) (digits : Nat) (exponent : Int) : Binary64 :=
  if digits = 0 then zero negative
  else match exponent with
    | .ofNat k => if 310 ≤ k then infinity negative else ofRatio negative (digits * Nat.pow 10 k) 1
    | .negSucc k =>
      if digits.log2 + 1101 < 3 * (k + 1) then zero negative
      else ofRatio negative digits (Nat.pow 10 (k + 1))

/-! ## Magnitudes -/

/-- The magnitude of a finite number as numerator and denominator. -/
def fraction (significand : Nat) : Int → Nat × Nat
  | .ofNat k => (significand * Nat.pow 2 k, 1)
  | .negSucc k => (significand, Nat.pow 2 (k + 1))

/-- The whole magnitude of a finite number without fraction part. -/
def whole? : Binary64 → Option Nat
  | finite _ significand exponent _ =>
    let part := fraction significand exponent
    if part.1 % part.2 = 0 then some (part.1 / part.2) else none
  | _ => none

/-- Whether the magnitude of the first number is at most that of the second, both being finite. -/
def isAtMost : Binary64 → Binary64 → Bool
  | finite _ m e _, finite _ n f _ =>
    (fraction m e).1 * (fraction n f).2 ≤ (fraction n f).1 * (fraction m e).2
  | _, _ => false

/-! ## Division -/

/-- The quotient, rounded once. -/
def div : Binary64 → Binary64 → Binary64
  | nan, _ | _, nan => nan
  | infinity _, infinity _ => nan
  | infinity a, finite b .. => infinity (a != b)
  | finite a .., infinity b => zero (a != b)
  | finite a m e _, finite b n f _ =>
    if n = 0 then (if m = 0 then nan else infinity (a != b))
    else
      let dividend := fraction m e
      let divisor := fraction n f
      ofRatio (a != b) (dividend.1 * divisor.2) (dividend.2 * divisor.1)

end Binary64
end DesignSystem
