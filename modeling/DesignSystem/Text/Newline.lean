/-! # Line ends

* `universalNewlines`: a text with every line end spelled as one line feed.
* `dropFinalNewline`: a text without the line feed that ends it.
* `lineAndColumn`: where an index of a text stands.
-/

namespace DesignSystem
set_option autoImplicit false

/-- Spells carriage returns, alone or before a line feed, as one line feed. -/
def universalNewlines : List Char → List Char
  | [] => []
  | '\r' :: '\n' :: rest => '\n' :: universalNewlines rest
  | '\r' :: rest => '\n' :: universalNewlines rest
  | c :: rest => c :: universalNewlines rest

/-- The text without one line feed at its end. -/
def dropFinalNewline (text : List Char) : List Char :=
  if text.getLast? = some '\n' then text.dropLast else text

/-- The line and the column, both from 1, of an index of a text. -/
def lineAndColumn (text : List Char) (index : Nat) : Nat × Nat :=
  let before := text.take index
  (before.count '\n' + 1, (before.reverse.takeWhile (· != '\n')).length + 1)

end DesignSystem
