import DesignSystem.Number.Basic

/-! # Numbers spelled in texts

Where a document may give a number as a text, the text is read leniently: blanks around it, a plus
sign, leading zeros and single underscores within it are allowed.

* `Number.integerOfText?`: integers, also with a fraction part of zeros.
* `Number.startsOversized`: whether a text starts with an integer that is too long to be read.
* `Number.floatOfText?`: decimals with an optional exponent, and the words for infinity and NaN.
* `Number.ofText?`: an integer if the text spells one, else a binary64 number.
-/

namespace DesignSystem.Number
set_option autoImplicit false

/-! ## Blanks, signs and underscores -/

/-- The characters that Unicode counts as white space. -/
def isWhitespace (c : Char) : Bool :=
  let n := c.toNat
  (0x09 ≤ n && n ≤ 0x0D) || n == 0x20 || n == 0x85 || n == 0xA0 || n == 0x1680 ||
    (0x2000 ≤ n && n ≤ 0x200A) || n == 0x2028 || n == 0x2029 || n == 0x202F || n == 0x205F ||
    n == 0x3000

def trim (text : List Char) : List Char :=
  ((text.dropWhile isWhitespace).reverse.dropWhile isWhitespace).reverse

/-- The sign of a text, positive without one, and the text after it. -/
def sign : List Char → Bool × List Char
  | '-' :: rest => (true, rest)
  | '+' :: rest => (false, rest)
  | text => (false, text)

def doubleUnderscore : List Char → Bool
  | '_' :: '_' :: _ => true
  | _ :: rest => doubleUnderscore rest
  | [] => false

/-- The text without its underscores, which stand alone and within it. -/
def withoutUnderscores? (text : List Char) : Option (List Char) :=
  if text.head? = some '_' || text.getLast? = some '_' || doubleUnderscore text then none
  else some (text.filter (· != '_'))

/-! ## Integers -/

/-- Whether a text has a minus sign in front, and the text after it. -/
def minus : List Char → Bool × List Char
  | '-' :: rest => (true, rest)
  | text => (false, text)

/-- The integer that a text writes in digits without leading zeros, a minus sign in front of them at
most; there are no more digits than a numeral may have. -/
def plainInteger? (text : List Char) : Option Int :=
  let (negative, digits) := minus text
  let canonical := match digits with
    | '0' :: rest => rest.isEmpty
    | _ => !digits.isEmpty && digits.all Char.isDigit
  if !canonical || maxDigits < digits.length then none
  else
    let magnitude : Int := Nat.ofDigitChars 10 digits 0
    some (if negative then -magnitude else magnitude)

/-- Whether the integer that a text starts with, written without leading zeros, has more digits than
a numeral may have. -/
def startsOversized (text : List Char) : Bool :=
  let digits := (minus text).2.takeWhile Char.isDigit
  digits.head? != some '0' && maxDigits < digits.length

/-- What follows leading zeros and the underscores among them, given the last character read: a
digit or a minus sign and the text after it. A last character that a point or nothing follows
stays. -/
def afterZeros (last : Char) : List Char → Option (List Char)
  | [] => some [last]
  | c :: rest =>
    if c == '0' || c == '_' then afterZeros c rest
    else if c == '.' then some (last :: c :: rest)
    else if c.isDigit || c == '-' then some (c :: rest)
    else none

/-- The text without its leading zeros; it starts with a digit or a minus sign. -/
def withoutLeadingZeros? : List Char → Option (List Char)
  | [] => none
  | c :: rest =>
    if c == '0' then afterZeros c rest
    else if c.isDigit || c == '-' then some (c :: rest)
    else none

/-- The text without its plus sign and its leading zeros; a minus sign stays in front. -/
def withoutPadding? : List Char → Option (List Char)
  | '+' :: '-' :: _ => none
  | '+' :: rest => withoutLeadingZeros? rest
  | '-' :: rest => (withoutLeadingZeros? rest).map ('-' :: ·)
  | text => withoutLeadingZeros? text

/-- The whole part of a text that may have a fraction part of zeros. -/
def beforeZeroFraction (text : List Char) : List Char :=
  match text.span (· != '.') with
  | (whole, '.' :: digit :: digits) =>
    if (digit :: digits).all (· == '0') then whole else text
  | _ => text

def integerOfText? (text : List Char) : Option Int :=
  (plainInteger? text).or do
    let unpadded ← withoutPadding? (trim text)
    let digits ← withoutUnderscores? (beforeZeroFraction unpadded)
    plainInteger? digits

/-! ## Binary64 numbers -/

/-- The exponent after a mantissa, zero without one; nothing may follow it. -/
def exponentOfText? : List Char → Option Int
  | [] => some 0
  | c :: rest =>
    let (negative, digits) := sign rest
    if (c == 'e' || c == 'E') && !digits.isEmpty && digits.all Char.isDigit then
      let magnitude : Int := Nat.ofDigitChars 10 digits 0
      some (if negative then -magnitude else magnitude)
    else none

/-- The unsigned decimal that a text spells; digits may be missing on one side of its point. -/
def decimalOfText? (text : List Char) : Option Decimal := do
  let (whole, rest) := text.span Char.isDigit
  let (fraction, rest) := match rest with
    | '.' :: rest => rest.span Char.isDigit
    | rest => ([], rest)
  if whole.isEmpty && fraction.isEmpty then none
  let exponent ← exponentOfText? rest
  return ⟨Nat.ofDigitChars 10 (whole ++ fraction) 0, exponent - fraction.length⟩

/-- The binary64 number that a text without blanks and underscores spells. -/
def plainFloatOfText? (text : List Char) : Option Binary64 :=
  let (negative, rest) := sign text
  match String.ofList (rest.map Char.toLower) with
  | "inf" | "infinity" => some (.infinity negative)
  | "nan" => some .nan
  | _ => (decimalOfText? rest).map fun d => .ofDecimal negative d.digits d.exponent

/-- The binary64 number that a text spells, with blanks around it or with underscores, not both. -/
def floatOfText? (text : List Char) : Option Binary64 :=
  (plainFloatOfText? (trim text)).or ((withoutUnderscores? text).bind plainFloatOfText?)

def ofText? (text : List Char) : Option Number :=
  ((integerOfText? text).map .int).or ((floatOfText? text).map .float)

end DesignSystem.Number
