/-! # Texts

A text is a list of code points. Most of them are characters; a surrogate, which is half of a pair,
can stand on its own, and a text with one is no Unicode text.

The texts that documents hold as values are such texts. The names of fields, of files and of
directories are `String`s, so all names here are Unicode texts.

* `Surrogate`, `CodePoint`, `Text`: texts and what they are made of.
* `Text.string?`: the Unicode text that a text is, if it is one.
* `Text.shown`, `Text.escaped`: a text with a replacement or an escape for each surrogate that
  stands on its own.
-/

namespace DesignSystem
set_option autoImplicit false

/-! ## Code points -/

def isHighSurrogate (unit : Nat) : Bool := 0xD800 ≤ unit && unit < 0xDC00

def isLowSurrogate (unit : Nat) : Bool := 0xDC00 ≤ unit && unit < 0xE000

/-- A code unit that is half of a pair. -/
structure Surrogate where
  unit : Nat
  isHalf : (isHighSurrogate unit || isLowSurrogate unit) = true
  deriving DecidableEq

/-- The last `width` hexadecimal digits of a number, in lower case. -/
def hexDigits (width value : Nat) : List Char :=
  (List.range width).reverse.map fun place => Nat.digitChar (value / Nat.pow 16 place % 16)

/-- A surrogate as an escape. -/
def Surrogate.escape (half : Surrogate) : List Char := '\\' :: 'u' :: hexDigits 4 half.unit

inductive CodePoint where
  | char (c : Char)
  /-- A surrogate on its own. -/
  | surrogate (half : Surrogate)
  deriving DecidableEq

namespace CodePoint

/-- The code point of a code unit on its own. -/
def ofUnit (unit : Nat) : CodePoint :=
  if isHalf : (isHighSurrogate unit || isLowSurrogate unit) = true then surrogate ⟨unit, isHalf⟩
  else char (.ofNat unit)

def isChar : CodePoint → Bool
  | char _ => true
  | surrogate _ => false

/-- The character that stands for a code point where there are characters only. -/
def shown : CodePoint → Char
  | char c => c
  | surrogate _ => '\uFFFD'

/-- A code point as it is written where surrogates are escaped. -/
def escaped : CodePoint → List Char
  | char c => [c]
  | surrogate half => half.escape

end CodePoint

/-! ## Texts -/

@[ext] structure Text where
  points : List CodePoint
  deriving DecidableEq

namespace Text

/-- The Unicode text of some characters. -/
def ofChars (chars : List Char) : Text := ⟨chars.map .char⟩

/-- A Unicode text. -/
@[coe] def ofString (text : String) : Text := ofChars text.toList

instance : Coe String Text := ⟨ofString⟩

instance : Append Text := ⟨fun text other => ⟨text.points ++ other.points⟩⟩

/-- Texts with a separator between them. -/
def intercalate (separator : Text) (texts : List Text) : Text :=
  ⟨separator.points.intercalate (texts.map points)⟩

/-- The characters of a text, surrogates on their own being replaced. -/
def chars (text : Text) : List Char := text.points.map CodePoint.shown

def shown (text : Text) : String := .ofList text.chars

def isUnicode (text : Text) : Bool := text.points.all CodePoint.isChar

def string? (text : Text) : Option String := if text.isUnicode then some text.shown else none

/-- The text with an escape for each surrogate on its own. -/
def escaped (text : Text) : String := .ofList (text.points.flatMap CodePoint.escaped)

end Text
end DesignSystem
