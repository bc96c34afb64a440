import DesignSystem.Json.Writer

/-! # Documents in messages

* `Json.display`: a document within a sentence: a text as it is, texts inside containers in quotes.
* `Json.typeName`: the name of a document's type where a text is needed.
-/

namespace DesignSystem.Json
set_option autoImplicit false

mutual

/-- A document inside a container. -/
def quotedForm : Json → String
  | null => "None"
  | bool value => if value then "True" else "False"
  | number (.int n) => .ofList (numeral n)
  | number (.float x) => .ofList (x.source messageWords)
  | string text => quoted text
  | array items => "[" ++ String.intercalate ", " (quotedItems items) ++ "]"
  | object fields => "\x7b" ++ String.intercalate ", " (quotedFields fields) ++ "\x7d"

def quotedItems : List Json → List String
  | [] => []
  | item :: items => quotedForm item :: quotedItems items

def quotedField : String × Json → String
  | (name, value) => quoted name ++ ": " ++ quotedForm value

def quotedFields : List (String × Json) → List String
  | [] => []
  | field :: fields => quotedField field :: quotedFields fields

end

def display : Json → Text
  | string text => text
  | document => quotedForm document

/-- The name of a document's type where a text is needed. -/
def typeName : Json → String
  | null => "NoneType"
  | bool _ => "bool"
  | number (.int _) => "int"
  | number (.float _) => "float"
  | string _ => "str"
  | array _ => "list"
  | object _ => "dict"

end DesignSystem.Json
