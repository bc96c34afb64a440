import DesignSystem.Model.Tokens

/-! # Model of the system manifest

* `SystemManifest`: the metadata of a workspace, with `decode` and `document`.
-/

namespace DesignSystem
set_option autoImplicit false

/-- The package or path behind a design system. -/
structure ComponentSource where
  type : SourceType
  value : Text

structure SystemManifest where
  schema : Option Text
  name : Text
  version : Text
  description : Option Text
  componentSource : Option ComponentSource
  defaultPlatform : Option Platform
  defaultTheme : Option Theme
  extras : Fields

namespace ComponentSource

def decode : Pointer → Json → Decoded ComponentSource :=
  Decoded.model "ComponentSource" fun pointer fields =>
    ComponentSource.mk <$> Decoded.required ["type"] (Decoded.member SourceType) pointer fields
      <*> Decoded.required ["value"] Decoded.string pointer fields

def document (source : ComponentSource) : Json :=
  .object [("type", Encoded.word source.type), ("value", .string source.value)]

end ComponentSource

namespace SystemManifest

def componentSourceNames : List String := ["componentSource", "component_source"]

def defaultPlatformNames : List String := ["defaultPlatform", "default_platform"]

def defaultThemeNames : List String := ["defaultTheme", "default_theme"]

def declared : List (List String) :=
  [schemaNames, ["name"], ["version"], ["description"], componentSourceNames,
    defaultPlatformNames, defaultThemeNames]

def decode (document : Json) : Decoded SystemManifest :=
  Decoded.model "SystemManifest" (fun pointer fields =>
    SystemManifest.mk <$> Decoded.optional schemaNames Decoded.string pointer fields
      <*> Decoded.required ["name"] Decoded.string pointer fields
      <*> Decoded.required ["version"] Decoded.string pointer fields
      <*> Decoded.optional ["description"] Decoded.string pointer fields
      <*> Decoded.optional componentSourceNames ComponentSource.decode pointer fields
      <*> Decoded.optional defaultPlatformNames (Decoded.member Platform) pointer fields
      <*> Decoded.optional defaultThemeNames (Decoded.member Theme) pointer fields
      <*> Decoded.remaining declared pointer fields) [] document

def document (manifest : SystemManifest) : Json :=
  .object (Encoded.optional "$schema" Json.string manifest.schema ++
    [("name", .string manifest.name), ("version", .string manifest.version)] ++
    Encoded.optional "description" Json.string manifest.description ++
    Encoded.optional "componentSource" ComponentSource.document manifest.componentSource ++
    Encoded.optional "defaultPlatform" Encoded.word manifest.defaultPlatform ++
    Encoded.optional "defaultTheme" Encoded.word manifest.defaultTheme ++
    Encoded.extras manifest.extras)

end SystemManifest
end DesignSystem
