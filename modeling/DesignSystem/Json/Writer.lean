import DesignSystem.Json.Basic
import DesignSystem.Text.Quoted

/-! # Writing JSON

* `Style`: on one line or indented, with all characters or ASCII alone.
* `Json.points`: the code points of the text of a document in a style.
* `Json.render`: its characters.
* `Json.unwritable?`: the first number of a document that a style refuses to write.
-/

namespace DesignSystem
set_option autoImplicit false

namespace Json

/-! ## Strings -/

/-- A surrogate pair, or the code unit itself, as escapes. -/
def unicodeEscape (c : Char) : List Char :=
  let n := c.toNat
  if n < 0x10000 then '\\' :: 'u' :: hexDigits 4 n
  else
    '\\' :: 'u' :: hexDigits 4 (0xD800 + (n - 0x10000) / 0x400) ++
      '\\' :: 'u' :: hexDigits 4 (0xDC00 + (n - 0x10000) % 0x400)

/-- A character as it stands in a string literal. -/
def escaped (ascii : Bool) (c : Char) : List Char :=
  if c == '"' || c == '\\' then ['\\', c]
  else if c == '\n' then ['\\', 'n']
  else if c == '\r' then ['\\', 'r']
  else if c == '\t' then ['\\', 't']
  else if c == '\x0c' then ['\\', 'f']
  else if c == '\x08' then ['\\', 'b']
  else if c.toNat < 0x20 || (ascii && 0x7E < c.toNat) then unicodeEscape c
  else [c]

/-- A code point as it stands in a string literal: among all characters, a surrogate on its own
stays as it is. -/
def escapedPoint (ascii : Bool) : CodePoint → List CodePoint
  | .char c => (escaped ascii c).map .char
  | .surrogate half => if ascii then half.escape.map .char else [.surrogate half]

def literalPoints (ascii : Bool) (text : Text) : List CodePoint :=
  .char '"' :: (text.points.flatMap (escapedPoint ascii) ++ [.char '"'])

def literal (ascii : Bool) (text : Text) : List Char :=
  (literalPoints ascii text).map CodePoint.shown

/-! ## Numbers -/

/-- The words that stand for numbers without digits in a document. -/
def specialWords : SpecialWords := ⟨"NaN", "Infinity"⟩

def numberLiteral : Number → List Char
  | .int n => numeral n
  | .float x => x.source specialWords

/-! ## Documents -/

structure Style where
  /-- Whether characters beyond ASCII are escaped. -/
  ascii : Bool
  /-- The width of one level of indentation; on one line if there is none. -/
  indent : Option Nat

/-- Everything on one line, as it is. -/
def Style.line : Style := ⟨false, none⟩

/-- Everything on one line in ASCII. -/
def Style.asciiLine : Style := ⟨true, none⟩

namespace Style

/-- The break before the first and after the last part of a container at a depth. -/
def edge (style : Style) (depth : Nat) : List Char :=
  match style.indent with
  | none => []
  | some width => '\n' :: List.replicate (width * depth) ' '

/-- The comma and break between two parts of a container at a depth. -/
def separator (style : Style) (depth : Nat) : List Char :=
  match style.indent with
  | none => [',', ' ']
  | some width => ',' :: '\n' :: List.replicate (width * depth) ' '

end Style

mutual

/-- The code points of the text of a document whose container stands at a depth. -/
def points (style : Style) (depth : Nat) : Json → List CodePoint
  | null => ['n', 'u', 'l', 'l'].map .char
  | bool true => ['t', 'r', 'u', 'e'].map .char
  | bool false => ['f', 'a', 'l', 's', 'e'].map .char
  | number n => (numberLiteral n).map .char
  | string text => literalPoints style.ascii text
  | array [] => ['[', ']'].map .char
  | array (item :: items) =>
    .char '[' :: ((style.edge (depth + 1)).map .char ++ (points style (depth + 1) item ++
      (itemPoints style (depth + 1) items ++ (style.edge depth ++ [']']).map .char)))
  | object [] => ['\x7b', '\x7d'].map .char
  | object (field :: fields) =>
    .char '\x7b' :: ((style.edge (depth + 1)).map .char ++ (fieldPoints style (depth + 1) field ++
      (fieldsPoints style (depth + 1) fields ++ (style.edge depth ++ ['\x7d']).map .char)))

/-- The items after the first one, each after a separator. -/
def itemPoints (style : Style) (depth : Nat) : List Json → List CodePoint
  | [] => []
  | item :: items => (style.separator depth).map .char ++ (points style depth item ++
      itemPoints style depth items)

def fieldPoints (style : Style) (depth : Nat) : String × Json → List CodePoint
  | (name, value) => literalPoints style.ascii name ++
      (.char ':' :: .char ' ' :: points style depth value)

/-- The fields after the first one, each after a separator. -/
def fieldsPoints (style : Style) (depth : Nat) : List (String × Json) → List CodePoint
  | [] => []
  | field :: fields => (style.separator depth).map .char ++ (fieldPoints style depth field ++
      fieldsPoints style depth fields)

end

section
variable (style : Style) (depth : Nat)

/-- The characters of the text of a document, surrogates on their own being replaced. -/
def render (document : Json) : List Char := (document.points style depth).map CodePoint.shown

def renderItems (items : List Json) : List Char :=
  (itemPoints style depth items).map CodePoint.shown

def renderField (field : String × Json) : List Char :=
  (fieldPoints style depth field).map CodePoint.shown

def renderFields (fields : List (String × Json)) : List Char :=
  (fieldsPoints style depth fields).map CodePoint.shown

end

def text (style : Style) (document : Json) : String := .ofList (document.render style 0)

/-! ## Refusals -/

inductive Unwritable where
  | tooLong
  | notFinite (value : Binary64)

/-- The words for numbers without digits in messages. -/
def messageWords : SpecialWords := ⟨"nan", "inf"⟩

def Unwritable.message : Unwritable → String
  | tooLong => NumberFault.numeralTooLong.message
  | notFinite value =>
    "Out of range float values are not JSON compliant: " ++
      .ofList (value.source messageWords)

/-- Why a number is not written: it has too many digits, or none although only finite numbers
are asked for. -/
def unwritableNumber? (finiteOnly : Bool) : Number → Option Unwritable
  | .int n => if maxDigits < (digitsOf n.natAbs).length then some .tooLong else none
  | .float x => if finiteOnly && !x.isFinite then some (.notFinite x) else none

mutual

/-- The first number of a document that is not written. -/
def unwritable? (finiteOnly : Bool) : Json → Option Unwritable
  | number n => unwritableNumber? finiteOnly n
  | array items => unwritableItem? finiteOnly items
  | object fields => unwritableField? finiteOnly fields
  | _ => none

def unwritableItem? (finiteOnly : Bool) : List Json → Option Unwritable
  | [] => none
  | item :: items => (unwritable? finiteOnly item).or (unwritableItem? finiteOnly items)

def unwritableValue? (finiteOnly : Bool) : String × Json → Option Unwritable
  | (_, value) => unwritable? finiteOnly value

def unwritableField? (finiteOnly : Bool) : List (String × Json) → Option Unwritable
  | [] => none
  | field :: fields => (unwritableValue? finiteOnly field).or (unwritableField? finiteOnly fields)

end

end Json
end DesignSystem
