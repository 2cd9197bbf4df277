import WidgetSkin.Editor.Basic
import WidgetSkin.Text.Description

/-!
# Descriptions of editors and canvases

What an editor and a canvas show of their state for inspection.

## Main definitions

* `Canvas.describe` — counts, stacking and active object.
* `Editor.describe` — the canvas, all layers, background, selection and tool.
-/

namespace WidgetSkin

open Text.Description

/-- The description of a handle. -/
def Handle.describe (h : Handle) : String :=
  applied "VisualId" (toString h.val)

/-- The description of an identifier. -/
def LayerId.describe (id : LayerId) : String :=
  applied "LayerId" (toString id.val)

/-- The description of a canvas. -/
def Canvas.describe (c : Canvas) : String :=
  record "MemorySurface"
    [("objects", toString c.objects.length),
      ("stacking", list (c.stacking.map Handle.describe)),
      ("active", Text.Description.optional (c.active.map Handle.describe)),
      ("listeners", toString c.listeners)]

/-- The description of a fill. -/
def Fill.describe (f : Fill) : String :=
  record "Fill" [("color", text f.color), ("opacity", number f.opacity)]

/-- The description of a content. -/
def Payload.describe : Payload → String
  | .text c => applied "Text" <| record "TextProps"
      [("text", Text.Description.text c.text), ("font_name", Text.Description.text c.fontName),
        ("font_size", number c.fontSize), ("fill", c.fill.describe)]
  | .image source => applied "Image" <| record "ImageProps"
      [("source", Text.Description.text source)]
  | .rotator n => applied "Rotator" <| record "RotatorProps"
      [("source", Text.Description.text n.source), ("offset_x", number n.offsetX),
        ("offset_y", number n.offsetY), ("start_angle", number n.startAngle),
        ("rotation_angle", number n.rotationAngle)]
  | .bar c => applied "Bar" <| record "BarProps"
      [("background", c.background.describe), ("foreground", c.foreground.describe)]
  | .shape c => applied "Shape" <| record "ShapeProps"
      [("shape", c.outline.label), ("fill", c.fill.describe)]

/-- The description of a layer. -/
def Layer.describe (l : Layer) : String :=
  record "Layer"
    [("id", l.id.describe), ("name", text l.name),
      ("measure", Text.Description.optional (l.measure.map text)),
      ("payload", l.payload.describe), ("visual", l.handle.describe),
      ("visible", flag l.visible), ("locked", flag l.locked)]

/-- The description of a background. -/
def Background.describe (b : Background) : String :=
  record "SkinBackground"
    [("position", pair (number b.position.x) (number b.position.y)),
      ("width", number b.width), ("height", number b.height),
      ("backdrop_color", text b.backdropColor)]

/-- The description of an editor. -/
def Editor.describe (e : Editor) : String :=
  record "LayerStore"
    [("surface", e.canvas.describe), ("layers", list (e.layers.map Layer.describe)),
      ("background", e.background.describe),
      ("selected", Text.Description.optional (e.selected.map LayerId.describe)),
      ("tool", e.tool.label)]

end WidgetSkin
