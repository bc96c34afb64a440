import DesignSystem.Json.Writer
import DesignSystem.Tokens.Compile

/-! # Exporting tokens

Compiled tokens are written as a JSON object, as CSS custom properties, or as a TypeScript module.

* `Scalar`: a value that can be exported.
* `Export.cssName`: the custom property of a token.
* `exportTokens`: the text of a token map in a format.
-/

namespace DesignSystem
set_option autoImplicit false

/-- A value of a token map; a map from elsewhere may also hold truth values. -/
inductive Scalar where
  | text (value : Text)
  | number (value : Number)
  | flag (value : Bool)

namespace Scalar

def document : Scalar → Json
  | text value => .string value
  | number value => .number value
  | flag value => .bool value

/-- The word for a truth value where numbers are rendered. -/
def flagWord (value : Bool) : List Char := if value then "True".toList else "False".toList

def cssValue : Scalar → Except NumberFault Text
  | text value => .ok value
  | number value => Text.ofChars <$> value.rendered
  | flag value => .ok (.ofChars (flagWord value))

end Scalar

def TokenValue.scalar : TokenValue → Scalar
  | text value => .text value
  | number value => .number value

/-- The entries of compiled tokens as they are exported. -/
def CompiledTokens.scalars (tokens : CompiledTokens) : List (String × Scalar) :=
  tokens.entries.map fun entry => (entry.1, entry.2.scalar)

def CompiledTokens.document (tokens : CompiledTokens) : Json :=
  Encoded.dict TokenValue.document tokens

namespace Export

/-! ## Formats -/

/-- Indented, in ASCII. -/
def jsonStyle : Json.Style := ⟨true, some 2⟩

/-- The text of a document, unless one of its numbers is not written. -/
def written (style : Json.Style) (document : Json) : Except NumberFault (List Char) :=
  match document.unwritable? false with
  | some _ => .error .numeralTooLong
  | none => .ok (document.render style 0)

def json (tokens : List (String × Scalar)) : Except NumberFault (List Char) := do
  let text ← written jsonStyle (.object (tokens.map fun token => (token.1, token.2.document)))
  return text ++ ['\n']

/-- The custom property of a token: dots become dashes. -/
def cssName (name : String) : List Char :=
  '-' :: '-' :: name.toList.map fun c => if c == '.' then '-' else c

/-- The lines of all tokens, each made by `line`. -/
def lines {α : Type} (line : String → Scalar → Except NumberFault (List α)) :
    List (String × Scalar) → Except NumberFault (List α)
  | [] => .ok []
  | token :: rest => do
    let first ← line token.1 token.2
    let others ← lines line rest
    return first ++ others

def cssLine (name : String) (value : Scalar) : Except NumberFault (List CodePoint) := do
  let rendered ← value.cssValue
  return ("  ".toList ++ cssName name ++ ": ".toList).map .char ++ rendered.points ++
    ";\n".toList.map .char

def css (tokens : List (String × Scalar)) : Except NumberFault (List CodePoint) := do
  let body ← lines cssLine tokens
  return ":root \x7b\n".toList.map .char ++ body ++ "\x7d\n".toList.map .char

def tsLine (name : String) (value : Scalar) : Except NumberFault (List Char) := do
  let literal ← written .asciiLine value.document
  return "  ".toList ++ Json.literal true name ++ ": ".toList ++ literal ++ ",\n".toList

def ts (tokens : List (String × Scalar)) : Except NumberFault (List Char) := do
  let body ← lines tsLine tokens
  return "export const tokens = \x7b\n".toList ++ body ++
    "\x7d as const;\n\nexport type TokenName = keyof typeof tokens;\n".toList

end Export

def exportTokens (format : ExportFormat) (tokens : List (String × Scalar)) :
    Except NumberFault Text :=
  match format with
  | .json => Text.ofChars <$> Export.json tokens
  | .css => Text.mk <$> Export.css tokens
  | .ts => Text.ofChars <$> Export.ts tokens

end DesignSystem
