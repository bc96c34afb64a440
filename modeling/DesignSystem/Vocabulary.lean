/-! # Closed vocabularies

Platforms, themes, token categories, transforms, prop types, component source types and export
formats are written as words of a closed vocabulary each.

* `Vocabulary`: all members of a vocabulary in their order, and the word of each.
* `Vocabulary.member?`: the member of a word.
-/

namespace DesignSystem
set_option autoImplicit false

/-- A closed vocabulary: its name, its members in order, and their words. -/
class Vocabulary (α : Type) where
  name : String
  members : List α
  word : α → String

namespace Vocabulary
variable {α : Type} [Vocabulary α]

def words (α : Type) [Vocabulary α] : List String := (members : List α).map word

def member? (text : String) : Option α := members.find? (word · == text)

end Vocabulary

open Vocabulary

inductive Platform where
  | web
  | rn
  deriving DecidableEq, Repr

instance : Vocabulary Platform where
  name := "Platform"
  members := [.web, .rn]
  word
    | .web => "web"
    | .rn => "rn"

inductive Theme where
  | light
  | dark
  deriving DecidableEq, Repr

instance : Vocabulary Theme where
  name := "Theme"
  members := [.light, .dark]
  word
    | .light => "light"
    | .dark => "dark"

inductive Category where
  | color
  | spacing
  | fontSize
  | lineHeight
  | borderRadius
  | borderWidth
  | fontFamily
  | fontWeight
  deriving DecidableEq, Repr

instance : Vocabulary Category where
  name := "TokenCategory"
  members := [.color, .spacing, .fontSize, .lineHeight, .borderRadius, .borderWidth, .fontFamily,
    .fontWeight]
  word
    | .color => "color"
    | .spacing => "spacing"
    | .fontSize => "fontSize"
    | .lineHeight => "lineHeight"
    | .borderRadius => "borderRadius"
    | .borderWidth => "borderWidth"
    | .fontFamily => "fontFamily"
    | .fontWeight => "fontWeight"

/-- How numeric values of a category are rendered. -/
inductive Transform where
  | px
  | rem
  | number
  | passthrough
  deriving DecidableEq, Repr

instance : Vocabulary Transform where
  name := "TokenTransform"
  members := [.px, .rem, .number, .passthrough]
  word
    | .px => "px"
    | .rem => "rem"
    | .number => "number"
    | .passthrough => "passthrough"

inductive PropType where
  | string
  | number
  | boolean
  | enum
  deriving DecidableEq, Repr

instance : Vocabulary PropType where
  name := "PropType"
  members := [.string, .number, .boolean, .enum]
  word
    | .string => "string"
    | .number => "number"
    | .boolean => "boolean"
    | .enum => "enum"

/-- Where the component implementations of a design system live. -/
inductive SourceType where
  | npm
  | path
  deriving DecidableEq, Repr

instance : Vocabulary SourceType where
  name := "ComponentSourceType"
  members := [.npm, .path]
  word
    | .npm => "npm"
    | .path => "path"

inductive ExportFormat where
  | json
  | css
  | ts
  deriving DecidableEq, Repr

instance : Vocabulary ExportFormat where
  name := "ExportFormat"
  members := [.json, .css, .ts]
  word
    | .json => "json"
    | .css => "css"
    | .ts => "ts"

end DesignSystem
