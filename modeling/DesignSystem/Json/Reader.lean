import DesignSystem.Json.Basic
import DesignSystem.Text.Newline

/-! # Reading JSON

A document is read from its characters. What is no document stops the reading where the fault is
found; an integer with too many digits, and the words for numbers without digits where they are
refused, stop it as well.

Depth does not stop it: documents are read however deeply they are nested. A surrogate on its own,
which is spelled by its escape, is part of the text of a value; in the name of a field, which is a
Unicode text, it is replaced.

* `SyntaxFault`, `Stop`: why and where reading stops.
* `readString`, `readNumber`, `readValue`: the parts of the grammar.
* `Json.read`: the document of a text.
* `ReadFault.message`: the text of a fault.
-/

namespace DesignSystem
set_option autoImplicit false

namespace Json

/-! ## Faults -/

/-- What the grammar misses. -/
inductive SyntaxFault where
  | missingValue
  | missingName
  | missingColon
  | missingComma
  | unterminatedString
  | controlCharacter
  | invalidEscape
  | invalidUnicodeEscape
  | extraData
  | byteOrderMark
  deriving DecidableEq, Repr

def SyntaxFault.message : SyntaxFault → String
  | missingValue => "Expecting value"
  | missingName => "Expecting property name enclosed in double quotes"
  | missingColon => "Expecting ':' delimiter"
  | missingComma => "Expecting ',' delimiter"
  | unterminatedString => "Unterminated string starting at"
  | controlCharacter => "Invalid control character at"
  | invalidEscape => "Invalid \\escape"
  | invalidUnicodeEscape => "Invalid \\uXXXX escape"
  | extraData => "Extra data"
  | byteOrderMark => "Unexpected UTF-8 BOM (decode using utf-8-sig)"

/-- The words for the numbers that have no digits. -/
inductive SpecialWord where
  | nan
  | infinity
  | negativeInfinity
  deriving DecidableEq, Repr

namespace SpecialWord

def text : SpecialWord → String
  | nan => "NaN"
  | infinity => "Infinity"
  | negativeInfinity => "-Infinity"

def value : SpecialWord → Binary64
  | nan => .nan
  | infinity => .infinity false
  | negativeInfinity => .infinity true

end SpecialWord

/-- Why reading stops; a syntax fault comes with the text from its place on. -/
inductive Stop where
  | syntaxFault (fault : SyntaxFault) (rest : List Char)
  | specialWord (word : SpecialWord)
  | tooManyDigits (count : Nat)

def fault {α : Type} (kind : SyntaxFault) (rest : List Char) : Except Stop α :=
  .error (.syntaxFault kind rest)

/-! ## Blanks -/

def isBlank (c : Char) : Bool := c == ' ' || c == '\t' || c == '\n' || c == '\r'

def skipBlanks (text : List Char) : List Char := text.dropWhile isBlank

/-! ## Strings -/

def hexValue? (c : Char) : Option Nat :=
  if '0' ≤ c ∧ c ≤ '9' then some (c.toNat - '0'.toNat)
  else if 'a' ≤ c ∧ c ≤ 'f' then some (c.toNat - 'a'.toNat + 10)
  else if 'A' ≤ c ∧ c ≤ 'F' then some (c.toNat - 'A'.toNat + 10)
  else none

/-- The value of four hexadecimal digits, and the text after them, which a string cannot lack. -/
def hexQuad? : List Char → Option (Nat × List Char)
  | a :: b :: c :: d :: next :: rest => do
    let a ← hexValue? a
    let b ← hexValue? b
    let c ← hexValue? c
    let d ← hexValue? d
    return (((a * 16 + b) * 16 + c) * 16 + d, next :: rest)
  | _ => none

/-- The code point of the code unit escape whose digits follow; `mark` is the text from the `u` of
the escape on. Two escapes may make one character. -/
def readUnicode (mark digits : List Char) : Except Stop (CodePoint × List Char) :=
  match hexQuad? digits with
  | none => fault .invalidUnicodeEscape mark
  | some (high, rest) =>
    if !isHighSurrogate high then .ok (.ofUnit high, rest)
    else match rest with
      | '\\' :: 'u' :: second =>
        if second.length < 5 then .ok (.ofUnit high, rest)
        else match hexQuad? second with
          | none => fault .invalidUnicodeEscape ('u' :: second)
          | some (low, after) =>
            if isLowSurrogate low then
              .ok (.char (.ofNat (0x10000 + (high - 0xD800) * 0x400 + (low - 0xDC00))), after)
            else .ok (.ofUnit high, rest)
      | _ => .ok (.ofUnit high, rest)

/-- The character of an escape of one letter. -/
def letterEscape? (c : Char) : Option Char :=
  if c == '"' || c == '\\' || c == '/' then some c
  else if c == 'b' then some '\x08'
  else if c == 'f' then some '\x0c'
  else if c == 'n' then some '\n'
  else if c == 'r' then some '\r'
  else if c == 't' then some '\t'
  else none

/-- One code point of a string whose opening quote is at `start`. -/
def readChar (start : List Char) : List Char → Except Stop (CodePoint × List Char)
  | [] => fault .unterminatedString start
  | '\\' :: [] => fault .unterminatedString start
  | '\\' :: 'u' :: digits => readUnicode ('u' :: digits) digits
  | '\\' :: letter :: rest =>
    match letterEscape? letter with
    | some c => .ok (.char c, rest)
    | none => fault .invalidEscape ('\\' :: letter :: rest)
  | c :: rest => if c < ' ' then fault .controlCharacter (c :: rest)
    else .ok (.char c, rest)

/-- The rest of a string whose opening quote is at `start`, up to its closing quote. -/
def readChars (start : List Char) :
    Nat → List Char → Except Stop (List CodePoint × List Char)
  | 0, _ => fault .unterminatedString start
  | _ + 1, '"' :: rest => .ok ([], rest)
  | fuel + 1, text => do
    let (point, rest) ← readChar start text
    let (points, rest) ← readChars start fuel rest
    return (point :: points, rest)

/-- The string whose opening quote stands before `text`. -/
def readString (text : List Char) : Except Stop (Text × List Char) := do
  let (points, rest) ← readChars ('"' :: text) (text.length + 1) text
  return (⟨points⟩, rest)

/-! ## Numbers -/

structure NumeralParts where
  negative : Bool
  /-- The digits before the point. -/
  whole : List Char
  /-- The digits after the point. -/
  fraction : List Char
  /-- The power of ten, if one is written. -/
  exponent : Option Int

/-- The whole number that a run of digits spells. -/
def digitsValue (digits : List Char) : Nat := Nat.ofDigitChars 10 digits 0

/-- The digits of a whole part, which is zero or does not begin with zero. -/
def wholePart : List Char → List Char × List Char
  | '0' :: rest => (['0'], rest)
  | text => text.span Char.isDigit

/-- The digits of a fraction part; a point without digits is not part of the numeral. -/
def fractionPart : List Char → List Char × List Char
  | '.' :: rest =>
    match rest.span Char.isDigit with
    | ([], _) => ([], '.' :: rest)
    | part => part
  | text => ([], text)

def exponentSign : List Char → Bool × List Char
  | '-' :: rest => (true, rest)
  | '+' :: rest => (false, rest)
  | text => (false, text)

/-- The exponent; the letter for it without digits is not part of the numeral. -/
def exponentPart : List Char → Option Int × List Char
  | [] => (none, [])
  | c :: rest =>
    if c == 'e' || c == 'E' then
      let (negative, digits) := exponentSign rest
      match digits.span Char.isDigit with
      | ([], _) => (none, c :: rest)
      | (digits, rest) =>
        let magnitude : Int := digitsValue digits
        (some (if negative then -magnitude else magnitude), rest)
    else (none, c :: rest)

/-- The numeral at the beginning of a text. -/
def numeralParts? (text : List Char) : Option (NumeralParts × List Char) :=
  let (negative, unsigned) := match text with
    | '-' :: rest => (true, rest)
    | text => (false, text)
  match wholePart unsigned with
  | ([], _) => none
  | (whole, rest) =>
    let (fraction, rest) := fractionPart rest
    let (exponent, rest) := exponentPart rest
    some (⟨negative, whole, fraction, exponent⟩, rest)

def NumeralParts.float (parts : NumeralParts) : Binary64 :=
  .ofDecimal parts.negative (digitsValue (parts.whole ++ parts.fraction))
    (parts.exponent.getD 0 - parts.fraction.length)

def NumeralParts.int (parts : NumeralParts) : Int :=
  if parts.negative then -(digitsValue parts.whole : Int) else digitsValue parts.whole

/-- The number of a numeral: an integer if it has neither fraction part nor exponent. -/
def NumeralParts.number (parts : NumeralParts) : Except Stop Number :=
  if parts.fraction.isEmpty && parts.exponent.isNone then
    if maxDigits < parts.whole.length then .error (.tooManyDigits parts.whole.length)
    else .ok (.int parts.int)
  else .ok (.float parts.float)

def readNumber (text : List Char) : Except Stop (Json × List Char) :=
  match numeralParts? text with
  | none => fault .missingValue text
  | some (parts, rest) => do
    let number ← parts.number
    return (.number number, rest)

/-! ## Documents -/

/-- A word for a number without digits, where such words are accepted. -/
def readSpecial (acceptSpecial : Bool) (word : SpecialWord) (rest : List Char) :
    Except Stop (Json × List Char) :=
  if acceptSpecial then .ok (.number (.float word.value), rest) else .error (.specialWord word)

def readScalar (acceptSpecial : Bool) (text : List Char) : Except Stop (Json × List Char) :=
  match text with
  | '"' :: rest => do
    let (value, rest) ← readString rest
    return (.string value, rest)
  | 'n' :: 'u' :: 'l' :: 'l' :: rest => .ok (.null, rest)
  | 't' :: 'r' :: 'u' :: 'e' :: rest => .ok (.bool true, rest)
  | 'f' :: 'a' :: 'l' :: 's' :: 'e' :: rest => .ok (.bool false, rest)
  | 'N' :: 'a' :: 'N' :: rest => readSpecial acceptSpecial .nan rest
  | 'I' :: 'n' :: 'f' :: 'i' :: 'n' :: 'i' :: 't' :: 'y' :: rest =>
    readSpecial acceptSpecial .infinity rest
  | '-' :: 'I' :: 'n' :: 'f' :: 'i' :: 'n' :: 'i' :: 't' :: 'y' :: rest =>
    readSpecial acceptSpecial .negativeInfinity rest
  | text => readNumber text

mutual

/-- A document at the beginning of a text. The fuel bounds the nesting of calls. -/
def readValue (acceptSpecial : Bool) : Nat → List Char → Except Stop (Json × List Char)
  | 0, text => fault .missingValue text
  | fuel + 1, '{' :: rest =>
    match skipBlanks rest with
    | '}' :: rest => .ok (.object [], rest)
    | text => do
      let (fields, rest) ← readFields acceptSpecial fuel text
      return (.object (collect fields), rest)
  | fuel + 1, '[' :: rest =>
    match skipBlanks rest with
    | ']' :: rest => .ok (.array [], rest)
    | text => do
      let (items, rest) ← readItems acceptSpecial fuel text
      return (.array items, rest)
  | _ + 1, text => readScalar acceptSpecial text

/-- The items of an array, up to its closing bracket. -/
def readItems (acceptSpecial : Bool) : Nat → List Char → Except Stop (List Json × List Char)
  | 0, text => fault .missingValue text
  | fuel + 1, text => do
    let (item, rest) ← readValue acceptSpecial fuel text
    match skipBlanks rest with
    | ']' :: rest => return ([item], rest)
    | ',' :: rest =>
      let (items, rest) ← readItems acceptSpecial fuel (skipBlanks rest)
      return (item :: items, rest)
    | rest => fault .missingComma rest

/-- The fields of an object, up to its closing brace. The names of fields are Unicode texts: a
surrogate on its own in a name is replaced. -/
def readFields (acceptSpecial : Bool) : Nat → List Char → Except Stop (Fields × List Char)
  | 0, text => fault .missingValue text
  | fuel + 1, '"' :: text => do
    let (name, rest) ← readString text
    match skipBlanks rest with
    | ':' :: rest =>
      let (value, rest) ← readValue acceptSpecial fuel (skipBlanks rest)
      match skipBlanks rest with
      | '}' :: rest => return ([(name.shown, value)], rest)
      | ',' :: rest =>
        let (fields, rest) ← readFields acceptSpecial fuel (skipBlanks rest)
        return ((name.shown, value) :: fields, rest)
      | rest => fault .missingComma rest
    | rest => fault .missingColon rest
  | _ + 1, text => fault .missingName text

end

/-- The document that makes up a text, blanks around it apart. -/
def readDocument (acceptSpecial : Bool) (text : List Char) : Except Stop Json := do
  if text.head? = some '\uFEFF' then fault .byteOrderMark text
  let (document, rest) ← readValue acceptSpecial (2 * text.length + 2) (skipBlanks text)
  match skipBlanks rest with
  | [] => return document
  | rest => fault .extraData rest

inductive ReadFault where
  | malformed (fault : SyntaxFault) (line column : Nat)
  | specialWord (word : SpecialWord)
  | tooManyDigits (count : Nat)
  deriving DecidableEq, Repr

/-- The fault of a text at which reading stopped. -/
def Stop.readFault (text : List Char) : Stop → ReadFault
  | .syntaxFault fault rest =>
    let (line, column) := lineAndColumn text (text.length - rest.length)
    .malformed fault line column
  | .specialWord word => .specialWord word
  | .tooManyDigits count => .tooManyDigits count

def read (acceptSpecial : Bool) (text : List Char) : Except ReadFault Json :=
  match readDocument acceptSpecial text with
  | .ok document => .ok document
  | .error stop => .error (stop.readFault text)

def ReadFault.message : ReadFault → String
  | malformed fault line column => s!"{fault.message} (line {line}, column {column})"
  | specialWord word => s!"Invalid JSON constant: {word.text}"
  | tooManyDigits count =>
    "Exceeds the limit (4300 digits) for integer string conversion: " ++
      s!"value has {count} digits; use sys.set_int_max_str_digits() to increase the limit"

end Json
end DesignSystem
