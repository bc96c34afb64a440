import DesignSystem.Workspace.Basic

/-! # The starter design system

The starter documents pass their checks and compile for every platform and theme.

* `Starter.system`, `Starter.core`, `Starter.semantic`, `Starter.platform`, `Starter.button`: the
  documents of a fresh workspace.
-/

namespace DesignSystem.Starter
set_option autoImplicit false

/-- An object with texts in its fields. -/
def texts (fields : List (String × String)) : Json :=
  .object (fields.map fun field => (field.1, .string field.2))

def schemaVersion : String × Json := ("$version", .string "1.0.0")

/-! ## Manifest -/

def system : Json :=
  .object [("name", .string "my-design-system"), ("version", .string "0.1.0"),
    ("description", .string "A DesignAgent-managed design system"),
    ("componentSource", texts [("type", "npm"), ("value", "@uistack/components")]),
    ("defaultPlatform", .string "web"), ("defaultTheme", .string "light")]

/-! ## Core tokens -/

def coreToken (category : Category) (name : String) (value : Json) : String × Json :=
  (name, .object [("value", value), ("category", Encoded.word category)])

def core : Json :=
  .object [schemaVersion, ("tokens", .object [
    coreToken .color "neutral.0" (.string "#ffffff"),
    coreToken .color "neutral.200" (.string "#e4e4e7"),
    coreToken .color "neutral.600" (.string "#52525b"),
    coreToken .color "neutral.800" (.string "#27272a"),
    coreToken .color "neutral.900" (.string "#18181b"),
    coreToken .color "brand.400" (.string "#60a5fa"),
    coreToken .color "brand.500" (.string "#3b82f6"),
    coreToken .spacing "spacing.1" (.int 4),
    coreToken .spacing "spacing.2" (.int 8),
    coreToken .spacing "spacing.4" (.int 16),
    coreToken .borderRadius "radius.md" (.int 10),
    coreToken .borderWidth "border.thin" (.int 1),
    coreToken .fontSize "fontSize.body" (.int 16),
    coreToken .lineHeight "lineHeight.body" (.int 24),
    coreToken .fontWeight "fontWeight.medium" (.int 500),
    coreToken .fontFamily "font.family.inter" (.string "Inter, system-ui, sans-serif")])]

/-! ## Semantic tokens -/

def semanticToken (name ref : String) : String × Json := (name, texts [("ref", ref)])

def described (name ref description : String) : String × Json :=
  (name, texts [("ref", ref), ("description", description)])

def colors (background text muted border primary : String) : Fields :=
  [described "color.bg" background "Background color",
    described "color.text" text "Primary text color",
    described "color.mutedText" muted "Muted text color",
    described "color.border" border "Border color",
    described "color.primary" primary "Primary color"]

def themeColors : Theme → Fields
  | .light => colors "neutral.0" "neutral.900" "neutral.600" "neutral.200" "brand.500"
  | .dark => colors "neutral.900" "neutral.0" "neutral.200" "neutral.800" "brand.400"

def sharedTokens : Fields :=
  [semanticToken "space.sm" "spacing.2",
    semanticToken "space.base" "spacing.4",
    semanticToken "radius.default" "radius.md",
    semanticToken "border.default" "border.thin",
    semanticToken "font.size.body" "fontSize.body",
    semanticToken "font.lineHeight.body" "lineHeight.body",
    semanticToken "font.weight.label" "fontWeight.medium",
    semanticToken "font.family.default" "font.family.inter"]

def semantic (theme : Theme) : Json :=
  .object [schemaVersion, ("$theme", Encoded.word theme),
    ("tokens", .object (themeColors theme ++ sharedTokens))]

/-! ## Platform rules -/

/-- The rule that renders a category by a transform. -/
def rule (transform : Transform) (category : Category) : Json :=
  .object [("category", Encoded.word category), ("transform", Encoded.word transform)]

/-- The categories of lengths. -/
def lengths : List Category := [.spacing, .borderRadius, .borderWidth, .lineHeight]

def platformRules : Platform → List Json
  | .web =>
    lengths.map (rule .px) ++
      [.object [("category", Encoded.word Category.fontSize),
          ("transform", Encoded.word Transform.rem), ("remBase", .int 16)],
        rule .number .fontWeight, rule .passthrough .color]
  | .rn =>
    lengths.map (rule .number) ++
      [rule .number .fontSize, rule .number .fontWeight, rule .passthrough .color]

def platform (platform : Platform) : Json :=
  .object [schemaVersion, ("$platform", Encoded.word platform),
    ("rules", .array (platformRules platform))]

/-! ## A contract -/

def strings (words : List String) : Json := .array (words.map Json.ofString)

def buttonProps : Fields :=
  [("label", .object [("type", .string "string"), ("required", .bool true),
      ("description", .string "Button text")]),
    ("variant", .object [("type", .string "enum"),
      ("values", strings ["primary", "secondary", "ghost"]), ("default", .string "primary")]),
    ("size", .object [("type", .string "enum"), ("values", strings ["sm", "md", "lg"]),
      ("default", .string "md")]),
    ("disabled", .object [("type", .string "boolean"), ("default", .bool false)])]

/-- A part of a contract with props. -/
def withProps (name : String) (props : Fields) : Json :=
  .object [("name", .string name), ("props", .object props)]

def button : Json :=
  .object [schemaVersion, ("name", .string "Button"),
    ("description", .string "Primary action trigger"),
    ("platformTargets", strings ["web", "rn"]),
    ("props", .object buttonProps),
    ("variants", .array [
      withProps "primary" [("variant", .string "primary")],
      withProps "secondary" [("variant", .string "secondary")]]),
    ("states", .array [texts [("name", "hover")], texts [("name", "pressed")],
      texts [("name", "disabled")]]),
    ("code", texts [("importPath", "@uistack/components"), ("exportName", "Button")]),
    ("examples", .array [
      withProps "Default" [("label", .string "Save")],
      withProps "Small ghost" [("label", .string "Cancel"), ("variant", .string "ghost"),
        ("size", .string "sm")],
      withProps "Disabled" [("label", .string "Submit"), ("disabled", .bool true)]])]

end DesignSystem.Starter
