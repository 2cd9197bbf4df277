import WidgetSkin.Decimal.Approximate
import WidgetSkin.Design.Document
import WidgetSkin.FileTree.Operations
import WidgetSkin.Json.Reader

/-!
# Loading designs

A design is read from JSON. A record is an object, in which other members are passed over, or
an array of its fields in order. A field that has a default may be left out; no field may come
twice, and no field but the measure of a layer may be null.

## Main definitions

* `ofJson?` for every part of a design.
* `Design.read?` — the design of a text.
* `Design.load` — the design in a file.
-/

namespace WidgetSkin

open Json (Value)

/-! ## Fields -/

/-- A number field; the number has to be within the range of doubles. -/
def numberOf? : Value → Option Float
  | .number n => n.approximate?
  | _ => none

/-- A field that has to be there. -/
def required {α : Type} (slot : Option Value) (read : Value → Option α) : Option α :=
  slot.bind read

/-- A field that may be left out. -/
def optional {α : Type} (slot : Option Value) (default : α) (read : Value → Option α) :
    Option α :=
  slot.elim (some default) read

/-- A text that may be null. -/
def textOrNull? : Value → Option (Option String)
  | .null => some none
  | v => v.string?.map some

/-! ## Geometry -/

/-- The point of a value. -/
def Point.ofJson? (v : Value) : Option Point := do
  let [x, y] ← v.fields? ["x", "y"] | none
  return ⟨← required x numberOf?, ← required y numberOf?⟩

/-- The size of a value. -/
def Size.ofJson? (v : Value) : Option Size := do
  let [width, height] ← v.fields? ["width", "height"] | none
  return ⟨← required width numberOf?, ← required height numberOf?⟩

/-- The scale of a value. -/
def Scale.ofJson? (v : Value) : Option Scale := do
  let [x, y] ← v.fields? ["x", "y"] | none
  return ⟨← required x numberOf?, ← required y numberOf?⟩

/-- The geometry of a value. -/
def Geometry.ofJson? (v : Value) : Option Geometry := do
  let [position, size, scale, angle] ← v.fields? ["position", "size", "scale", "angle_deg"]
    | none
  return { position := ← required position Point.ofJson?
           size := ← required size Size.ofJson?
           scale := ← optional scale Scale.unit Scale.ofJson?
           angle := ← optional angle 0 numberOf? }

/-! ## Contents -/

/-- The fill of a value. -/
def Fill.ofJson? (v : Value) : Option Fill := do
  let [color, opacity] ← v.fields? ["color", "opacity"] | none
  return ⟨← required color Value.string?, ← optional opacity 1 numberOf?⟩

/-- The text content of a value. -/
def TextContent.ofJson? (v : Value) : Option TextContent := do
  let [text, fontName, fontSize, fill] ←
    v.fields? ["text", "font_name", "font_size", "fill"] | none
  return { text := ← required text Value.string?
           fontName := ← required fontName Value.string?
           fontSize := ← required fontSize numberOf?
           fill := ← required fill Fill.ofJson? }

/-- The source of the image content of a value. -/
def imageSourceOf? (v : Value) : Option String := do
  let [source] ← v.fields? ["source"] | none
  required source Value.string?

/-- The needle of a value. -/
def Needle.ofJson? (v : Value) : Option Needle := do
  let [source, offsetX, offsetY, startAngle, rotationAngle] ←
    v.fields? ["source", "offset_x", "offset_y", "start_angle", "rotation_angle"] | none
  return { source := ← required source Value.string?
           offsetX := ← optional offsetX 0 numberOf?
           offsetY := ← optional offsetY 0 numberOf?
           startAngle := ← optional startAngle 0 numberOf?
           rotationAngle := ← optional rotationAngle 90 numberOf? }

/-- The bar content of a value. -/
def BarContent.ofJson? (v : Value) : Option BarContent := do
  let [background, foreground] ← v.fields? ["background", "foreground"] | none
  return ⟨← required background Fill.ofJson?, ← required foreground Fill.ofJson?⟩

/-- The outline of a value: its label, alone or as the key of a null. -/
def Outline.ofJson? : Value → Option Outline
  | .string (some label) => ofLabel? label
  | .object [(some label, .null)] => ofLabel? label
  | _ => none

/-- The shape content of a value. -/
def ShapeContent.ofJson? (v : Value) : Option ShapeContent := do
  let [outline, fill] ← v.fields? ["shape", "fill"] | none
  return ⟨← required outline Outline.ofJson?, ← required fill Fill.ofJson?⟩

/-- The content of a layer of a kind. -/
def Payload.ofKind? (v : Value) : LayerKind → Option Payload
  | .text => .text <$> TextContent.ofJson? v
  | .image => .image <$> imageSourceOf? v
  | .rotator => .rotator <$> Needle.ofJson? v
  | .bar => .bar <$> BarContent.ofJson? v
  | .shape => .shape <$> ShapeContent.ofJson? v

/-- The content of a value: an object whose only key is the kind. -/
def Payload.ofJson? : Value → Option Payload
  | .object [(some label, v)] => (LayerKind.ofLabel? label).bind (ofKind? v)
  | _ => none

/-! ## Designs -/

/-- The layer of a value. -/
def LayerSnapshot.ofJson? (v : Value) : Option LayerSnapshot := do
  let [id, name, measure, payload, geometry, visible, locked] ←
    v.fields? ["id", "name", "measure", "payload", "geometry", "visible", "locked"] | none
  return { id := .ofNat (← optional id 0 (Value.natBelow? UInt64.size))
           name := ← required name Value.string?
           measure := ← optional measure none textOrNull?
           payload := ← required payload Payload.ofJson?
           geometry := ← required geometry Geometry.ofJson?
           visible := ← optional visible true Value.bool?
           locked := ← optional locked false Value.bool? }

/-- The background of a value. -/
def Background.ofJson? (v : Value) : Option Background := do
  let [position, width, height, backdropColor] ←
    v.fields? ["position", "width", "height", "backdrop_color"] | none
  return { position := ← required position Point.ofJson?
           width := ← required width numberOf?
           height := ← required height numberOf?
           backdropColor := ← optional backdropColor "#FFFFFF" Value.string? }

/-- The metadata of a value. -/
def Metadata.ofJson? (v : Value) : Option Metadata := do
  let [name, author, version, description] ←
    v.fields? ["name", "author", "version", "description"] | none
  return { name := ← optional name "" Value.string?
           author := ← optional author "" Value.string?
           version := ← optional version "" Value.string?
           description := ← optional description "" Value.string? }

/-- The settings of a value. -/
def Settings.ofJson? (v : Value) : Option Settings := do
  let [updateMs, fontScaleCorrection, scrollIncrement, minScale, defaultSkinName,
      skinFileName] ←
    v.fields? ["update_ms", "font_scale_correction", "scroll_increment", "min_scale",
      "default_skin_name", "skin_file_name"] | none
  let default : Settings := {}
  return { updateMs := .ofNat (← optional updateMs default.updateMs.toNat
             (Value.natBelow? UInt32.size))
           fontScaleCorrection := ← optional fontScaleCorrection default.fontScaleCorrection
             numberOf?
           scrollIncrement := ← optional scrollIncrement default.scrollIncrement numberOf?
           minScale := ← optional minScale default.minScale numberOf?
           defaultSkinName := ← optional defaultSkinName default.defaultSkinName Value.string?
           skinFileName := ← optional skinFileName default.skinFileName Value.string? }

/-- The layers of a value. -/
def layersOf? (v : Value) : Option (List LayerSnapshot) :=
  v.array?.bind fun items => items.mapM LayerSnapshot.ofJson?

namespace Design

/-- The design of a value. -/
def ofJson? (v : Value) : Option Design := do
  let [metadata, background, layers, allowScrollResize, settings] ←
    v.fields? ["metadata", "background", "layers", "allow_scroll_resize", "settings"] | none
  return { metadata := ← optional metadata {} Metadata.ofJson?
           background := ← optional background {} Background.ofJson?
           layers := ← optional layers [] layersOf?
           allowScrollResize := ← optional allowScrollResize false Value.bool?
           settings := ← optional settings {} Settings.ofJson? }

/-- The design of a sequence of symbols. -/
def ofSymbols? (s : List Text.Symbol) : Option Design :=
  (Json.parse? s).bind ofJson?

/-- The design of a text. -/
def read? (text : String) : Option Design :=
  ofSymbols? (Text.symbols text)

/-- The design in a file. -/
def load (t : FileTree) (path : String) : Except Fault Design :=
  match t.read path with
  | .error _ => .error .unreadableDesign
  | .ok content =>
    match ofSymbols? (Text.decodeUtf8 content.toList) with
    | some design => .ok design
    | none => .error .unreadableDesign

end Design

end WidgetSkin
