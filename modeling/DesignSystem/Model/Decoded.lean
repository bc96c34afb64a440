import DesignSystem.Issue
import DesignSystem.Number.Spelled
import DesignSystem.Vocabulary

/-! # Decoding documents into models

Decoding collects what is wrong in all parts of a document, in the order of the model's fields. A
field may go by several names; the first that is present counts, and issues are located at it.

* `Mismatch`: why a part does not fit its place in a model, with message and code.
* `Decoded`: a model, or all mismatches.
* `Decoded.string`, `Decoded.boolean`, `Decoded.number`, …: the parts that models are made of.
* `Decoded.required`, `Decoded.optional`, `Decoded.defaulted`: their fields.
-/

namespace DesignSystem
set_option autoImplicit false

/-! ## Mismatches -/

inductive Mismatch where
  | missing
  | notModel (model : String)
  | notObject
  | notArray
  | notString
  | notUnicode
  | notMember (words : List String)
  | notBoolean
  | unreadableBoolean
  | notInteger
  | unreadableInteger
  | oversizedInteger
  | notNumber
  | unreadableNumber

namespace Mismatch

/-- Words in single quotes, the last one after "or". -/
def alternatives : List String → String
  | [] => ""
  | [word] => s!"'{word}'"
  | [word, last] => s!"'{word}' or '{last}'"
  | word :: rest => s!"'{word}', {alternatives rest}"

def message : Mismatch → String
  | missing => "Field required"
  | notModel model => s!"Input should be a valid dictionary or instance of {model}"
  | notObject => "Input should be a valid dictionary"
  | notArray => "Input should be a valid list"
  | notString => "Input should be a valid string"
  | notUnicode => "Input should be a valid string, unable to parse raw data as a unicode string"
  | notMember words => s!"Input should be {alternatives words}"
  | notBoolean => "Input should be a valid boolean"
  | unreadableBoolean => "Input should be a valid boolean, unable to interpret input"
  | notInteger => "Input should be a valid integer"
  | unreadableInteger => "Input should be a valid integer, unable to parse string as an integer"
  | oversizedInteger => "Unable to parse input string as an integer, exceeded maximum size"
  | notNumber => "Input should be a valid number"
  | unreadableNumber => "Input should be a valid number, unable to parse string as a number"

def code : Mismatch → String
  | missing => "missing"
  | notModel _ => "model_type"
  | notObject => "dict_type"
  | notArray => "list_type"
  | notString => "string_type"
  | notUnicode => "string_unicode"
  | notMember _ => "enum"
  | notBoolean => "bool_type"
  | unreadableBoolean => "bool_parsing"
  | notInteger => "int_type"
  | unreadableInteger => "int_parsing"
  | oversizedInteger => "int_parsing_size"
  | notNumber => "float_type"
  | unreadableNumber => "float_parsing"

def issue (mismatch : Mismatch) (pointer : Pointer) (found : Json) : Issue :=
  ⟨.pointer pointer, mismatch.message, mismatch.code, Issue.reported found⟩

end Mismatch

/-! ## Results -/

/-- A part of a model, or every issue that keeps it from being one. -/
inductive Decoded (α : Type) where
  | ok (value : α)
  | rejected (issues : List Issue)

namespace Decoded
variable {α β : Type}

def map (f : α → β) : Decoded α → Decoded β
  | ok value => ok (f value)
  | rejected issues => rejected issues

/-- Applies a part to a part; the issues of both are kept. -/
def apply : Decoded (α → β) → Decoded α → Decoded β
  | ok f, ok value => ok (f value)
  | ok _, rejected issues => rejected issues
  | rejected issues, ok _ => rejected issues
  | rejected first, rejected second => rejected (first ++ second)

instance : Applicative Decoded where
  pure := ok
  seq f value := f.apply (value ())

def isOk : Decoded α → Bool
  | ok _ => true
  | rejected _ => false

def mismatch (kind : Mismatch) (pointer : Pointer) (found : Json) : Decoded α :=
  rejected [kind.issue pointer found]

/-! ## Scalars -/

def string (pointer : Pointer) (document : Json) : Decoded Text :=
  match document with
  | .string text => ok text
  | _ => mismatch .notString pointer document

def member (α : Type) [Vocabulary α] (pointer : Pointer) (document : Json) : Decoded α :=
  match document with
  | .string text =>
    match text.string? with
    | none => mismatch .notUnicode pointer document
    | some word =>
      match Vocabulary.member? word with
      | some value => ok value
      | none => mismatch (.notMember (Vocabulary.words α)) pointer document
  | _ => mismatch (.notMember (Vocabulary.words α)) pointer document

/-- The words that stand for truth values, in lower case. -/
def truthWord? (word : String) : Option Bool :=
  if ["0", "off", "f", "false", "n", "no"].contains word then some false
  else if ["1", "on", "t", "true", "y", "yes"].contains word then some true
  else none

/-- The integer that a number is, within 64 bits. -/
def smallInteger? : Number → Option Int
  | .int n => if -(Nat.pow 2 63 : Int) ≤ n ∧ n < Nat.pow 2 63 then some n else none
  | .float x => do
    let whole ← x.whole?
    if whole < Nat.pow 2 63 then some (if x.isNegative then -whole else whole) else none

/-- A truth value, also as the number 0 or 1 or as a word for it. -/
def boolean (pointer : Pointer) (document : Json) : Decoded Bool :=
  match document with
  | .bool value => ok value
  | .string word =>
    match truthWord? (.ofList (word.chars.map Char.toLower)) with
    | some value => ok value
    | none => mismatch .unreadableBoolean pointer document
  | .number n =>
    match smallInteger? n with
    | some 0 => ok false
    | some 1 => ok true
    | some _ => mismatch .unreadableBoolean pointer document
    | none => mismatch .notBoolean pointer document
  | _ => mismatch .notBoolean pointer document

/-- A truth value as the number 0 or 1. -/
def truthNumber (value : Bool) : Number := .int (if value then 1 else 0)

/-- A number, also as a truth value or spelled in a text. A part that is none fails as an integer
and as a binary64 number. -/
def number (pointer : Pointer) (document : Json) : Decoded Number :=
  let fail (integer float : Mismatch) : Decoded Number :=
    rejected [integer.issue (pointer ++ [.field "int"]) document,
      float.issue (pointer ++ [.field "float"]) document]
  match document with
  | .number n => ok n
  | .bool value => ok (truthNumber value)
  | .string text =>
    match Number.ofText? text.chars with
    | some n => ok n
    | none =>
      fail (if text.isUnicode && Number.startsOversized text.chars then .oversizedInteger
        else .unreadableInteger) .unreadableNumber
  | _ => fail .notInteger .notNumber

/-! ## Containers -/

def all : List (Decoded α) → Decoded (List α)
  | [] => ok []
  | part :: parts => (part.map List.cons).apply (all parts)

def array (item : Pointer → Json → Decoded α) (pointer : Pointer) (document : Json) :
    Decoded (List α) :=
  match document with
  | .array items =>
    all (items.zipIdx.map fun (document, position) => item (pointer ++ [.index position]) document)
  | _ => mismatch .notArray pointer document

/-- An object with values of one kind under any names. -/
def dict (entry : Pointer → Json → Decoded α) (pointer : Pointer) (document : Json) :
    Decoded (Dict α) :=
  match document with
  | .object fields =>
    (all (fields.map fun field =>
      (entry (pointer ++ [.field field.1]) field.2).map (field.1, ·))).map Dict.ofList
  | _ => mismatch .notObject pointer document

def any (_ : Pointer) (document : Json) : Decoded Json := ok document

def anyObject (pointer : Pointer) (document : Json) : Decoded Fields :=
  match document with
  | .object fields => ok fields
  | _ => mismatch .notObject pointer document

/-- An object with the fields of a model of a name. -/
def model (name : String) (inside : Pointer → Fields → Decoded α) (pointer : Pointer)
    (document : Json) : Decoded α :=
  match document with
  | .object fields => inside pointer fields
  | _ => mismatch (.notModel name) pointer document

/-! ## Fields -/

/-- The field that is present under the first of its names. -/
def find? (names : List String) (fields : Fields) : Option (String × Json) :=
  names.findSome? fun name => (fields.get? name).map (name, ·)

def required (names : List String) (part : Pointer → Json → Decoded α) (pointer : Pointer)
    (fields : Fields) : Decoded α :=
  match find? names fields with
  | some (name, document) => part (pointer ++ [.field name]) document
  | none => rejected [Mismatch.missing.issue (pointer ++ [.field (names.headD "")]) .null]

def optional (names : List String) (part : Pointer → Json → Decoded α) (pointer : Pointer)
    (fields : Fields) : Decoded (Option α) :=
  match find? names fields with
  | some (_, .null) | none => ok none
  | some (name, document) => (part (pointer ++ [.field name]) document).map some

/-- A field that takes a default when it is absent. -/
def defaulted (names : List String) (default : α) (part : Pointer → Json → Decoded α)
    (pointer : Pointer) (fields : Fields) : Decoded α :=
  match find? names fields with
  | some (name, document) => part (pointer ++ [.field name]) document
  | none => ok default

/-- The fields besides those that a model declares, each declared field being taken under the first
of its names. -/
def extras (declared : List (List String)) (fields : Fields) : Fields :=
  let taken := declared.filterMap fun names => (find? names fields).map Prod.fst
  fields.filter (!taken.contains ·.1)

/-- The extra fields of a model, which are kept as they are. -/
def remaining (declared : List (List String)) (_ : Pointer) (fields : Fields) : Decoded Fields :=
  ok (extras declared fields)

end Decoded

/-! ## Documents of models -/

namespace Encoded

mutual

/-- A free document as models write it: numbers without digits become null. -/
def free : Json → Json
  | .number (.float x) => if x.isFinite then .number (.float x) else .null
  | .array items => .array (freeItems items)
  | .object fields => .object (freeFields fields)
  | document => document

def freeItems : List Json → List Json
  | [] => []
  | item :: items => free item :: freeItems items

def freeField : String × Json → String × Json
  | (name, value) => (name, free value)

def freeFields : List (String × Json) → List (String × Json)
  | [] => []
  | field :: fields => freeField field :: freeFields fields

end

/-- A field that is written if it has a value. -/
def optional {α : Type} (name : String) (encode : α → Json) (value : Option α) : Fields :=
  (value.map fun value => (name, encode value)).toList

/-- Extra fields; null ones are not written. -/
def extras (fields : Fields) : Fields :=
  freeFields (fields.filter (!·.2.isNull))

def word {α : Type} [Vocabulary α] (value : α) : Json := .string (Vocabulary.word value)

def dict {α : Type} (encode : α → Json) (values : Dict α) : Json :=
  .object (values.entries.map fun entry => (entry.1, encode entry.2))

end Encoded
end DesignSystem
