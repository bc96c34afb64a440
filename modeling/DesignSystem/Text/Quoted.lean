import DesignSystem.Text.Basic
import DesignSystem.Text.Printable

/-! # Quoted texts in messages

A text is quoted with single quotes, or with double quotes when it holds a single quote and no
double one. The quote, the backslash, line ends and tabs are escaped, and so is every character
that does not print.

* `quotedChar`, `quotedPoint`: a character and a code point between quotes.
* `quoted`: a text with its quotes.
-/

namespace DesignSystem
set_option autoImplicit false

/-- A character as it stands within `quote`s. -/
def quotedChar (quote c : Char) : List Char :=
  if c == quote || c == '\\' then ['\\', c]
  else if c == '\n' then ['\\', 'n']
  else if c == '\r' then ['\\', 'r']
  else if c == '\t' then ['\\', 't']
  else if isPrintable c then [c]
  else if c.toNat < 0x100 then '\\' :: 'x' :: hexDigits 2 c.toNat
  else if c.toNat < 0x10000 then '\\' :: 'u' :: hexDigits 4 c.toNat
  else '\\' :: 'U' :: hexDigits 8 c.toNat

def quotedPoint (quote : Char) : CodePoint → List Char
  | .char c => quotedChar quote c
  | .surrogate half => half.escape

def quoted (text : Text) : String :=
  let points := text.points
  let quote := if points.contains (.char '\'') && !points.contains (.char '"') then '"' else '\''
  .ofList (quote :: points.flatMap (quotedPoint quote) ++ [quote])

end DesignSystem
