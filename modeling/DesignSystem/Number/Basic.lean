import DesignSystem.Number.Shortest
import DesignSystem.Number.Fault

/-! # Numbers of documents

A document keeps integers of any size and binary64 numbers apart.

* `Number.toFloat`, `Number.div`: conversion and division, with the causes for which they fail.
* `Number.source`: the literal of a number in a document.
* `Number.rendered`: the literal of a number in a compiled token.
-/

namespace DesignSystem
set_option autoImplicit false

inductive Number where
  | int (value : Int)
  | float (value : Binary64)
  deriving DecidableEq

/-! ## Literals of binary64 numbers -/

/-- The words for the numbers that have no digits. -/
structure SpecialWords where
  nan : String
  infinity : String

namespace Binary64

/-- The mantissa of scientific notation: one digit, and a point if more follow. -/
def mantissa (s : Significant) : List Char :=
  match s.leading with
  | (first, []) => first
  | (first, rest) => first ++ '.' :: rest

/-- The exponent of a source literal: a sign and at least two digits. -/
def sourceExponent (exponent : Int) : List Char :=
  let digits := digitsOf exponent.natAbs
  (if exponent < 0 then '-' else '+') :: (if digits.length < 2 then '0' :: digits else digits)

/-- The source literal of a finite magnitude: positional, always with a fraction part, when the
first digit stands at a power of ten from -4 to 15, and scientific otherwise. -/
def sourceMagnitude (significand : Nat) (exponent : Int) : List Char :=
  let s := (shortest significand exponent).significant
  if -4 ≤ s.exponent ∧ s.exponent < 16 then
    match s.positional with
    | (whole, []) => whole ++ ['.', '0']
    | (whole, fraction) => whole ++ '.' :: fraction
  else mantissa s ++ 'e' :: sourceExponent s.exponent

/-- A sign in front of the literal of a magnitude. -/
def signed (negative : Bool) (literal : List Char) : List Char :=
  if negative then '-' :: literal else literal

def source (words : SpecialWords) : Binary64 → List Char
  | nan => words.nan.toList
  | infinity negative => signed negative words.infinity.toList
  | finite negative significand exponent _ =>
    signed negative (sourceMagnitude significand exponent)

/-- The exponent of a rendered literal: a sign and no leading zero. -/
def renderedExponent (exponent : Int) : List Char :=
  (if exponent < 0 then '-' else '+') :: digitsOf exponent.natAbs

/-- The rendering of a number: a whole number below `10 ^ 21` as its numeral, other magnitudes
from `10 ^ -6` (the binary64 number of that name) to `10 ^ 21` with their digits written out, the
rest in scientific notation. Infinities and NaN have no rendering. -/
def rendered (x : Binary64) : Except NumberFault (List Char) :=
  match x with
  | nan | infinity _ => .error .notRenderable
  | finite negative significand exponent _ =>
    match x.whole? with
    | some whole =>
      if whole < Nat.pow 10 21 then .ok (numeral (if negative then -whole else whole))
      else .ok (signed negative (scientific significand exponent))
    | none =>
      if ofDecimal false 1 (-6) |>.isAtMost x then
        let (whole, rest) := (shortest significand exponent).significant.positional
        .ok (signed negative (whole ++ '.' :: rest))
      else .ok (signed negative (scientific significand exponent))
where
  /-- Scientific notation of a finite magnitude. -/
  scientific (significand : Nat) (exponent : Int) : List Char :=
    let s := (shortest significand exponent).significant
    mantissa s ++ 'e' :: renderedExponent s.exponent

end Binary64

namespace Number

/-! ## Conversion and division -/

/-- The nearest binary64 number; an integer has to have a finite one. -/
def toFloat : Number → Except NumberFault Binary64
  | float x => .ok x
  | int n =>
    let x := Binary64.ofInt n
    if x.isFinite then .ok x else .error .integerTooLarge

/-- The quotient: of two integers it is rounded once, otherwise both sides are converted first. -/
def div (a b : Number) : Except NumberFault Binary64 :=
  match a, b with
  | int m, int n =>
    if n = 0 then .error .divisionByZero
    else
      let quotient := Binary64.ofRatio ((m < 0) != (n < 0)) m.natAbs n.natAbs
      if quotient.isFinite then .ok quotient else .error .quotientTooLarge
  | a, b => do
    let x ← a.toFloat
    let y ← b.toFloat
    if y.isZero then .error .floatDivisionByZero else .ok (x.div y)

/-! ## Literals -/

/-- The numeral of an integer, unless it has too many digits to be written. -/
def writtenNumeral (value : Int) : Except NumberFault (List Char) :=
  if maxDigits < (digitsOf value.natAbs).length then .error .numeralTooLong
  else .ok (numeral value)

/-- The literal of a number in a compiled token. -/
def rendered : Number → Except NumberFault (List Char)
  | int n => writtenNumeral n
  | float x => x.rendered

end Number
end DesignSystem
