import DesignSystem.Dict
import DesignSystem.Number.Basic
import DesignSystem.Text.Basic

/-! # JSON documents

* `Json`: a document, integers kept apart from binary64 numbers, objects with their fields in order.
  The names of fields are Unicode texts, and the depth of a document has no limit.
* `Json.kind`: the name of a document's type in messages.
* `Json.isNumber`, `Json.isOversized`: finite numbers, and the integers that no conversion takes.
-/

namespace DesignSystem
set_option autoImplicit false

inductive Json where
  | null
  | bool (value : Bool)
  | number (value : Number)
  | string (value : Text)
  | array (items : List Json)
  | object (fields : List (String × Json))

/-- The fields of an object in order. -/
abbrev Fields := List (String × Json)

def Fields.get? (fields : Fields) (name : String) : Option Json := fields.lookup name

def Fields.has (fields : Fields) (name : String) : Bool := (fields.get? name).isSome

namespace Json

/-- The name of the type of a document. -/
def kind : Json → String
  | null => "null"
  | bool _ => "boolean"
  | number _ => "number"
  | string _ => "string"
  | array _ => "array"
  | object _ => "object"

def isNull : Json → Bool
  | null => true
  | _ => false

def isString : Json → Bool
  | string _ => true
  | _ => false

/-- Whether a document is this word. -/
def isWord (word : String) : Json → Bool
  | string text => text == word
  | _ => false

def isBool : Json → Bool
  | bool _ => true
  | _ => false

def isNumber : Json → Bool
  | number n => (n.toFloat.toOption.map Binary64.isFinite).getD false
  | _ => false

/-- Whether a document is an integer beyond the finite binary64 numbers, on which a check for
numbers stops. -/
def isOversized : Json → Bool
  | number n => n.toFloat.toOption.isNone
  | _ => false

def isPositive : Json → Bool
  | number (.int n) => 0 < n
  | number (.float x) => x.isPositive
  | _ => false

def int (value : Int) : Json := number (.int value)

def ofString (value : String) : Json := string value

end Json
end DesignSystem
