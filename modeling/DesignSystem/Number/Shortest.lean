import DesignSystem.Number.Binary64

/-! # The shortest decimal of a binary64 number

A finite number is written with the fewest significant digits that read back as the number; of
several such digit strings the one nearest to the number is taken, a tie going to the even digit.

* `Decimal`: a whole number of digits times a power of ten.
* `Binary64.shortest`: the shortest decimal that reads back.
* `Significant`: the digits of a decimal without trailing zeros, and where its point stands.
-/

namespace DesignSystem
set_option autoImplicit false

/-! ## Decimals -/

/-- The decimal `digits * 10 ^ exponent`. -/
structure Decimal where
  digits : Nat
  exponent : Int
  deriving DecidableEq

/-- The digits of a whole number, most significant first. -/
def digitsOf (value : Nat) : List Char := Nat.toDigits 10 value

def numeral (value : Int) : List Char :=
  if value < 0 then '-' :: digitsOf value.natAbs else digitsOf value.natAbs

namespace Binary64

/-! ## Decimal grids -/

/-- The place of the first digit: `num / den` lies below `10 ^ p` and not below `10 ^ (p - 1)`. -/
def pointOf (num den : Nat) : Int :=
  let p : Int := ((digitsOf num).length : Int) - (digitsOf den).length
  let below : Bool := match p with
    | .ofNat k => num < den * Nat.pow 10 k
    | .negSucc k => num * Nat.pow 10 (k + 1) < den
  if below then p else p + 1

/-- The fraction `num / den` in units of a power of ten. -/
def inUnits (num den : Nat) : Int → Nat × Nat
  | .ofNat k => (num, den * Nat.pow 10 k)
  | .negSucc k => (num * Nat.pow 10 (k + 1), den)

/-- Of the two neighbours of `num / den` on the grid of `count` significant digits, the nearest
that `readsBack`. -/
def neighbour? (readsBack : Decimal → Bool) (num den : Nat) (count : Nat) : Option Decimal :=
  let unit := pointOf num den - count
  let part := inUnits num den unit
  let lower : Decimal := ⟨part.1 / part.2, unit⟩
  let upper : Decimal := ⟨part.1 / part.2 + 1, unit⟩
  let rest := part.1 % part.2
  match readsBack lower, readsBack upper with
  | true, true =>
    if 2 * rest < part.2 then some lower
    else if part.2 < 2 * rest then some upper
    else if lower.digits % 2 = 0 then some lower else some upper
  | true, false => some lower
  | false, true => some upper
  | false, false => none

/-- The full decimal expansion of a finite magnitude. -/
def expansion (significand : Nat) : Int → Decimal
  | .ofNat k => ⟨significand * Nat.pow 2 k, 0⟩
  | .negSucc k => ⟨significand * Nat.pow 5 (k + 1), -(k + 1 : Int)⟩

/-- The shortest decimal that reads back as a finite magnitude. -/
def shortest (significand : Nat) (exponent : Int) : Decimal :=
  if significand = 0 then ⟨0, 0⟩
  else
    let number := ofParts false significand exponent
    let part := fraction significand exponent
    let readsBack (d : Decimal) : Bool := ofDecimal false d.digits d.exponent == number
    ((List.range' 1 17).findSome? (neighbour? readsBack part.1 part.2)).getD
      (expansion significand exponent)

end Binary64

/-! ## Significant digits -/

/-- Digits worth `0.d₁d₂… * 10 ^ point`; zero has no significant digit. -/
structure Significant where
  digits : List Char
  point : Int

def Decimal.significant (d : Decimal) : Significant :=
  if d.digits = 0 then ⟨[], 1⟩
  else
    let digits := digitsOf d.digits
    ⟨(digits.reverse.dropWhile (· == '0')).reverse, digits.length + d.exponent⟩

namespace Significant

/-- The digits around a point that stands among or beside them: the whole part, never empty, and
the fraction part. -/
def positional (s : Significant) : List Char × List Char :=
  match s.point with
  | .ofNat 0 => (['0'], s.digits)
  | .ofNat k => (s.digits.take k ++ List.replicate (k - s.digits.length) '0', s.digits.drop k)
  | .negSucc k => (['0'], List.replicate (k + 1) '0' ++ s.digits)

/-- The first digit and the digits after it. -/
def leading (s : Significant) : List Char × List Char := (s.digits.take 1, s.digits.drop 1)

/-- The power of ten of the first digit. -/
def exponent (s : Significant) : Int := s.point - 1

end Significant
end DesignSystem
