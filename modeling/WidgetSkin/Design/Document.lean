import WidgetSkin.Layer.Payload
import WidgetSkin.Skin.Settings

/-!
# Designs

A design is everything that a skin is compiled from, as it is saved to disk.

## Main definitions

* `Design` — a saved design.
* `Design.snapshot`, `Design.options` — its parts, as the compilation takes them.
-/

namespace WidgetSkin

/-- Everything that a skin is compiled from. -/
structure Design where
  metadata : Metadata := {}
  background : Background := {}
  layers : List LayerSnapshot := []
  allowScrollResize : Bool := false
  settings : Settings := {}
deriving DecidableEq

namespace Design

/-- The design of a snapshot. -/
def ofSnapshot (snapshot : Snapshot) (metadata : Metadata) (options : SkinOptions) : Design where
  metadata
  background := snapshot.background
  layers := snapshot.layers
  allowScrollResize := options.allowScrollResize
  settings := options.settings

/-- The background with the layers. -/
def snapshot (d : Design) : Snapshot :=
  ⟨d.background, d.layers⟩

/-- The settings with the switches. -/
def options (d : Design) : SkinOptions :=
  ⟨d.allowScrollResize, d.settings⟩

end Design

end WidgetSkin
