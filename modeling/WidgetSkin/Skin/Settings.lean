import WidgetSkin.Fault
import WidgetSkin.Path

/-!
# Settings of a skin

## Main definitions

* `Settings` — the fixed values of every skin.
* `SkinOptions` — the settings with the switches of one compilation.
* `Metadata` — what a skin says about itself.
* `Metadata.directoryName` — the name of the directory that a skin is written to.
-/

namespace WidgetSkin

/-- The fixed values of every skin. -/
structure Settings where
  /-- The milliseconds between two updates. -/
  updateMs : UInt32 := 1000
  /-- What font sizes of the editor are divided by. -/
  fontScaleCorrection : Float := 1.33
  /-- What one notch of the mouse wheel adds to the scale. -/
  scrollIncrement : Float := 0.05
  /-- The smallest scale that the mouse wheel reaches. -/
  minScale : Float := 0.2
  /-- The name of a skin that has none of its own. -/
  defaultSkinName : String := "rmEditorSkin"
  skinFileName : String := "skin.ini"
deriving DecidableEq

/-- The settings with the switches of one compilation. -/
structure SkinOptions where
  /-- Whether the mouse wheel changes the scale. -/
  allowScrollResize : Bool := false
  settings : Settings := {}
deriving DecidableEq

/-- What a skin says about itself. -/
structure Metadata where
  name : String := ""
  author : String := ""
  version : String := ""
  description : String := ""
deriving DecidableEq

/-- The name of the directory that a skin is written to. -/
def Metadata.directoryName (m : Metadata) (s : Settings) : String :=
  if m.name.isEmpty then s.defaultSkinName else m.name

/-- The fields of the metadata with their names. -/
def Metadata.fields (m : Metadata) : List (String × String) :=
  [("name", m.name), ("author", m.author), ("version", m.version),
    ("description", m.description)]

end WidgetSkin
