import WidgetSkin.Decimal.Style
import WidgetSkin.Font.Face
import WidgetSkin.Measure.Catalog
import WidgetSkin.Skin.AssetPlan
import WidgetSkin.Skin.Document
import WidgetSkin.Skin.Settings

/-!
# Layers as declarations

What a layer is in a skin file: the declarations of its measure, and one meter. Positions are
seen from the corner of the background, and lengths grow with the scale of the skin.

## Main definitions

* `Block` — the declarations of one layer.
* `MeterContext` — what the declarations of a layer depend on besides the layer.
* `MeterContext.block` — the declarations of a layer.
-/

namespace WidgetSkin

/-- The declarations of one layer. -/
structure Block where
  measures : List MeasureDeclaration
  meter : MeterDeclaration
deriving DecidableEq

/-- A length that grows with the scale of the skin. -/
def scaled (x : Float) : String :=
  "(" ++ Decimal.format x ++ " * #Scale#)"

/-- The name of the measure of a layer. -/
def measureName (layerName : String) : String :=
  "Measure" ++ layerName

/-- The entry of the catalog that a layer shows. -/
def LayerSnapshot.catalogMeasure? (layer : LayerSnapshot) : Option MeasureEntry :=
  Catalog.resolve? layer.kind layer.measure

/-- Whether a layer appears in a skin. A rotator or a bar without a value to show does not. -/
def LayerSnapshot.isShown (layer : LayerSnapshot) : Bool :=
  match layer.kind with
  | .text | .image | .shape => true
  | .rotator | .bar => layer.catalogMeasure?.isSome

/-- The declarations of a measure for a layer. -/
def MeasureEntry.declarationsFor (entry : MeasureEntry) (layerName : String) :
    List MeasureDeclaration :=
  entry.recipe.declarations.map fun d =>
    ⟨d.nameFor (measureName layerName), d.type, d.optionsFor (measureName layerName)⟩

/-- The name of the declaration that a layer's meter refers to. -/
def MeasureEntry.reference (entry : MeasureEntry) (layerName : String) :
    Except Fault String :=
  match entry.recipe.declarations.findRev? Declaration.isPrimary with
  | some d => .ok (d.nameFor (measureName layerName))
  | none => .error (.invalid (.noPrimaryDeclaration entry.id))

/-- What the declarations of a layer depend on besides the layer. -/
structure MeterContext where
  /-- The corner of the background. -/
  origin : Point
  settings : Settings
  assets : AssetPlan

namespace MeterContext

/-- The position of a layer seen from the corner of the background. -/
def positionOf (c : MeterContext) (layer : LayerSnapshot) : Point :=
  layer.geometry.position.relativeTo c.origin

/-- The name of an image in the skin. -/
def imageName (c : MeterContext) (source : String) : Except Fault String :=
  match c.assets.imageIndex? source with
  | some index => .ok (imageReference index)
  | none => .error (.asset source .notPlanned)

/-- The declarations of a layer that shows a measure. -/
def measured (layer : LayerSnapshot) (entry : MeasureEntry) (options : List (String × String)) :
    Except Fault Block := do
  let name ← entry.reference layer.name
  return ⟨entry.declarationsFor layer.name,
    ⟨layer.name, .ofKind layer.kind, [name], options⟩⟩

/-- The declarations of a layer that shows no measure. -/
def unmeasured (layer : LayerSnapshot) (options : List (String × String)) : Block :=
  ⟨[], ⟨layer.name, .ofKind layer.kind, [], options⟩⟩

/-- The face and style words of a font name. A name that is nothing but style words is a face
itself. -/
def faceOf (fontName : String) : FaceName :=
  let face := FaceName.ofDisplayName fontName
  if face.family.isEmpty then { face with family := fontName } else face

/-- The options of a text meter that shows `shown`. -/
def textOptions (c : MeterContext) (layer : LayerSnapshot) (content : TextContent)
    (shown : String) : List (String × String) :=
  let face := faceOf content.fontName
  let position := c.positionOf layer
  [("FontFace", face.family),
    ("FontSize", scaled (content.fontSize / c.settings.fontScaleCorrection)),
    ("FontColor", content.fill.encode),
    ("StringStyle", face.style.keyword),
    ("X", scaled position.x),
    ("Y", scaled position.y),
    ("Angle", Decimal.format (radians layer.geometry.angle)),
    ("AntiAlias", "1"),
    ("Text", shown)]

/-- A text shows the value of its measure, or else its own words. -/
def textBlock (c : MeterContext) (layer : LayerSnapshot) (content : TextContent) :
    Except Fault Block :=
  match layer.catalogMeasure? with
  | some entry => measured layer entry (c.textOptions layer content entry.recipe.valueTemplate)
  | none =>
    .ok (unmeasured layer (c.textOptions layer content (Text.LineBreak.encode content.text)))

/-- The options of an image meter: the upright box around the turned image. -/
def imageOptions (c : MeterContext) (layer : LayerSnapshot) (name : String) :
    List (String × String) :=
  let g := layer.geometry
  let bounds := (Bounds.ofRotated g.scaledSize g.angle).size
  let center := c.positionOf layer
  [("ImageName", name),
    ("W", scaled bounds.width),
    ("H", scaled bounds.height),
    ("X", scaled (center.x - bounds.width / 2)),
    ("Y", scaled (center.y - bounds.height / 2)),
    ("ImageRotate", Decimal.format g.angle)]

/-- The declarations of an image. -/
def imageBlock (c : MeterContext) (layer : LayerSnapshot) (source : String) :
    Except Fault Block := do
  let name ← c.imageName source
  return unmeasured layer (c.imageOptions layer name)

/-- The options of a rotator meter. Offsets go from the corner of the image. -/
def rotatorOptions (c : MeterContext) (layer : LayerSnapshot) (needle : Needle) (name : String)
    (remainder : Option Nat) : List (String × String) :=
  let size := layer.geometry.scaledSize
  let halfWidth := size.width / 2
  let halfHeight := size.height / 2
  let center := c.positionOf layer
  [("ImageName", name),
    ("W", scaled size.width),
    ("H", scaled size.height),
    ("X", scaled (center.x - halfWidth)),
    ("Y", scaled (center.y - halfHeight)),
    ("StartAngle", Decimal.format (radians needle.startAngle)),
    ("RotationAngle", Decimal.format (radians needle.rotationAngle)),
    ("OffsetX", scaled (needle.offsetX + halfWidth)),
    ("OffsetY", scaled (needle.offsetY + halfHeight))] ++
  (remainder.map fun r => ("ValueRemainder", toString r)).toList

/-- The declarations of a rotator that shows `entry`. -/
def rotatorBlock (c : MeterContext) (layer : LayerSnapshot) (needle : Needle)
    (entry : MeasureEntry) : Except Fault Block := do
  let name ← c.imageName needle.source
  measured layer entry (c.rotatorOptions layer needle name entry.recipe.valueRemainder)

/-- The options of a bar meter. -/
def barOptions (c : MeterContext) (layer : LayerSnapshot) (content : BarContent) :
    List (String × String) :=
  let position := c.positionOf layer
  let size := layer.geometry.scaledSize
  [("X", scaled position.x),
    ("Y", scaled position.y),
    ("W", scaled size.width),
    ("H", scaled size.height),
    ("BarOrientation", "Horizontal"),
    ("BarColor", content.background.encode),
    ("SolidColor", content.foreground.encode)]

/-- The name under which the outline of a triangle is given. -/
def trianglePath : String := "TrianglePath"

/-- The outline of a shape. -/
def outlineText (outline : Outline) (size : Size) : String :=
  match outline with
  | .rectangle => "Rectangle 0,0," ++ scaled size.width ++ "," ++ scaled size.height
  | .ellipse =>
    let x := scaled (size.width / 2)
    let y := scaled (size.height / 2)
    "Ellipse " ++ ",".intercalate [x, y, x, y]
  | .triangle => "Path " ++ trianglePath

/-- The path of a triangle with its top in the middle of the upper side. -/
def triangleText (size : Size) : String :=
  scaled (size.width / 2) ++ ",0 | LineTo " ++ scaled size.width ++ "," ++
    scaled size.height ++ " | LineTo 0," ++ scaled size.height ++ " | ClosePath 1"

/-- The turn of a shape, if there is one. -/
def turnText (angle : Float) : String :=
  if angle != 0 then " | Rotate " ++ Decimal.format angle else ""

/-- The options of a shape meter. -/
def shapeOptions (c : MeterContext) (layer : LayerSnapshot) (content : ShapeContent) :
    List (String × String) :=
  let position := c.positionOf layer
  let size := layer.geometry.scaledSize
  [("X", scaled position.x),
    ("Y", scaled position.y),
    ("Shape", outlineText content.outline size ++ " | Fill Color " ++ content.fill.encode ++
      " | StrokeWidth 0" ++ turnText layer.geometry.angle)] ++
  (if content.outline = .triangle then [(trianglePath, triangleText size)] else [])

/-- The declarations of a layer; a layer that does not appear has none. -/
def block (c : MeterContext) (layer : LayerSnapshot) : Except Fault (Option Block) :=
  match layer.payload with
  | .text content => some <$> c.textBlock layer content
  | .image source => some <$> c.imageBlock layer source
  | .rotator needle =>
    match layer.catalogMeasure? with
    | some entry => some <$> c.rotatorBlock layer needle entry
    | none => .ok none
  | .bar content =>
    match layer.catalogMeasure? with
    | some entry => some <$> measured layer entry (c.barOptions layer content)
    | none => .ok none
  | .shape content => .ok (some (unmeasured layer (c.shapeOptions layer content)))

end MeterContext

/-- Declare everything that a layer needs. -/
def Document.addBlock (doc : Document) (b : Block) : Except Fault Document := do
  (← b.measures.foldlM addMeasure doc).addMeter b.meter

end WidgetSkin
