/-! # What can go wrong with a number

* `NumberFault`: the causes.
* `NumberFault.message`: their texts.
-/

namespace DesignSystem
set_option autoImplicit false

/-- Why a number cannot be converted, divided, written or rendered. -/
inductive NumberFault where
  /-- An integer beyond the finite binary64 numbers. -/
  | integerTooLarge
  /-- A quotient of integers beyond the finite binary64 numbers. -/
  | quotientTooLarge
  /-- An integer divided by the integer zero. -/
  | divisionByZero
  /-- A division by zero in which a binary64 number takes part. -/
  | floatDivisionByZero
  /-- An infinity or NaN where a numeral has to be rendered. -/
  | notRenderable
  /-- An integer with more digits than are written. -/
  | numeralTooLong
  deriving DecidableEq, Repr

/-- The most digits that an integer is read or written with. -/
def maxDigits : Nat := 4300

def NumberFault.message : NumberFault → String
  | .integerTooLarge => "int too large to convert to float"
  | .quotientTooLarge => "integer division result too large for a float"
  | .divisionByZero => "division by zero"
  | .floatDivisionByZero => "float division by zero"
  | .notRenderable => "invalid literal for int() with base 10: ''"
  | .numeralTooLong =>
    "Exceeds the limit (4300 digits) for integer string conversion; " ++
      "use sys.set_int_max_str_digits() to increase the limit"

end DesignSystem
