import WidgetSkin.Decimal.Style
import WidgetSkin.Design.Document
import WidgetSkin.Json.Printer

/-!
# Saving designs

A design is saved as JSON, every record as an object with its fields in a fixed order. A layer
without a measure has no such member.

## Main definitions

* `toJson` for every part of a design.
* `Design.pretty` — the text of a design.
-/

namespace WidgetSkin

open Json (Value)

/-- The value of a number; one that is not finite has none. -/
def jsonNumber (x : Float) : Value :=
  if x.isFinite then .number (Decimal.Style.json.numeral x) else .null

/-- The value of a natural number. -/
def jsonNat (n : Nat) : Value :=
  .number (.ofNat n)

/-- The value of a point. -/
def Point.toJson (p : Point) : Value :=
  .ofMembers [("x", jsonNumber p.x), ("y", jsonNumber p.y)]

/-- The value of a size. -/
def Size.toJson (s : Size) : Value :=
  .ofMembers [("width", jsonNumber s.width), ("height", jsonNumber s.height)]

/-- The value of a scale. -/
def Scale.toJson (s : Scale) : Value :=
  .ofMembers [("x", jsonNumber s.x), ("y", jsonNumber s.y)]

/-- The value of a geometry. -/
def Geometry.toJson (g : Geometry) : Value :=
  .ofMembers [("position", g.position.toJson), ("size", g.size.toJson),
    ("scale", g.scale.toJson), ("angle_deg", jsonNumber g.angle)]

/-- The value of a fill. -/
def Fill.toJson (f : Fill) : Value :=
  .ofMembers [("color", .ofString f.color), ("opacity", jsonNumber f.opacity)]

/-- The value of a text content. -/
def TextContent.toJson (c : TextContent) : Value :=
  .ofMembers [("text", .ofString c.text), ("font_name", .ofString c.fontName),
    ("font_size", jsonNumber c.fontSize), ("fill", c.fill.toJson)]

/-- The value of a needle. -/
def Needle.toJson (n : Needle) : Value :=
  .ofMembers [("source", .ofString n.source), ("offset_x", jsonNumber n.offsetX),
    ("offset_y", jsonNumber n.offsetY), ("start_angle", jsonNumber n.startAngle),
    ("rotation_angle", jsonNumber n.rotationAngle)]

/-- The value of a bar content. -/
def BarContent.toJson (c : BarContent) : Value :=
  .ofMembers [("background", c.background.toJson), ("foreground", c.foreground.toJson)]

/-- The value of a shape content. -/
def ShapeContent.toJson (c : ShapeContent) : Value :=
  .ofMembers [("shape", .ofString c.outline.label), ("fill", c.fill.toJson)]

/-- The value of a content: an object whose only key is the kind. -/
def Payload.toJson (p : Payload) : Value :=
  .ofMembers [(p.kind.label,
    match p with
    | .text c => c.toJson
    | .image source => .ofMembers [("source", .ofString source)]
    | .rotator n => n.toJson
    | .bar c => c.toJson
    | .shape c => c.toJson)]

/-- The value of a layer. -/
def LayerSnapshot.toJson (l : LayerSnapshot) : Value :=
  .ofMembers ([("id", jsonNat l.id.toNat), ("name", .ofString l.name)] ++
    (l.measure.map fun m => ("measure", Value.ofString m)).toList ++
    [("payload", l.payload.toJson), ("geometry", l.geometry.toJson),
      ("visible", .bool l.visible), ("locked", .bool l.locked)])

/-- The value of a background. -/
def Background.toJson (b : Background) : Value :=
  .ofMembers [("position", b.position.toJson), ("width", jsonNumber b.width),
    ("height", jsonNumber b.height), ("backdrop_color", .ofString b.backdropColor)]

/-- The value of metadata. -/
def Metadata.toJson (m : Metadata) : Value :=
  .ofMembers [("name", .ofString m.name), ("author", .ofString m.author),
    ("version", .ofString m.version), ("description", .ofString m.description)]

/-- The value of settings. -/
def Settings.toJson (s : Settings) : Value :=
  .ofMembers [("update_ms", jsonNat s.updateMs.toNat),
    ("font_scale_correction", jsonNumber s.fontScaleCorrection),
    ("scroll_increment", jsonNumber s.scrollIncrement), ("min_scale", jsonNumber s.minScale),
    ("default_skin_name", .ofString s.defaultSkinName),
    ("skin_file_name", .ofString s.skinFileName)]

namespace Design

/-- The value of a design. -/
def toJson (d : Design) : Value :=
  .ofMembers [("metadata", d.metadata.toJson), ("background", d.background.toJson),
    ("layers", .array (d.layers.map LayerSnapshot.toJson)),
    ("allow_scroll_resize", .bool d.allowScrollResize), ("settings", d.settings.toJson)]

/-- The text of a design. -/
def pretty (d : Design) : String :=
  .ofList (d.toJson.pretty 0)

end Design

end WidgetSkin
