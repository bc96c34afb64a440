import DesignSystem.Check.Basic

/-! # Check of the system manifest

* `Check.systemManifest`: the metadata of a workspace; other fields are tolerated.
-/

namespace DesignSystem.Check
set_option autoImplicit false

def componentSource : Pointer → Json → List Issue :=
  object ["type", "value"] fun pointer fields =>
    optional "type" (member SourceType) pointer fields ++ optional "value" string pointer fields

def systemManifest (document : Json) : List Issue :=
  object ["name", "version"] (fun pointer fields =>
    optional "$schema" string pointer fields ++
      optional "name" string pointer fields ++
      optional "version" string pointer fields ++
      optional "description" string pointer fields ++
      optional "defaultPlatform" (member Platform) pointer fields ++
      optional "defaultTheme" (member Theme) pointer fields ++
      optional "componentSource" componentSource pointer fields) [] document

end DesignSystem.Check
