import WidgetSkin.Layer.Needle
import WidgetSkin.Color
import WidgetSkin.Geometry

/-!
# Contents of layers

## Main definitions

* `Fill` — a colour with an opacity.
* `TextContent`, `BarContent`, `ShapeContent` — what layers of these kinds show.
* `Payload` — the content of a layer of any kind.
* `Background` — the canvas that a skin is anchored to.
* `LayerSnapshot`, `Snapshot` — layers with their geometry, as they are saved and compiled.
-/

namespace WidgetSkin

/-- A colour with an opacity. -/
structure Fill where
  color : String
  opacity : Float := 1
deriving DecidableEq

/-- The four numbers of a fill in a skin file. -/
def Fill.encode (f : Fill) : String :=
  encodeColor f.color f.opacity

/-- The content of a text layer. -/
structure TextContent where
  text : String
  /-- The display name of the font, such as `Roboto Bold`. -/
  fontName : String
  fontSize : Float
  fill : Fill
deriving DecidableEq

/-- The content of a bar layer: a track and what fills it. -/
structure BarContent where
  background : Fill
  foreground : Fill
deriving DecidableEq

/-- The half of a bar that a colour is meant for. -/
inductive BarPart where
  | background
  | foreground
deriving DecidableEq

/-- The bar with another fill for one half. -/
def BarContent.setFill (b : BarContent) (part : BarPart) (fill : Fill) : BarContent :=
  match part with
  | .background => { b with background := fill }
  | .foreground => { b with foreground := fill }

/-- The outline of a shape. -/
inductive Outline where
  | rectangle
  /-- The ellipse inside the box. -/
  | ellipse
  /-- The triangle with its top in the middle of the upper side. -/
  | triangle
deriving DecidableEq

namespace Outline

/-- All outlines. -/
def all : List Outline := [rectangle, ellipse, triangle]

/-- The word for an outline. -/
def label : Outline → String
  | rectangle => "Rectangle"
  | ellipse => "Ellipse"
  | triangle => "Triangle"

/-- The outline with a label. -/
def ofLabel? (s : String) : Option Outline :=
  all.find? fun o => o.label == s

end Outline

/-- The content of a shape layer. -/
structure ShapeContent where
  outline : Outline
  fill : Fill
deriving DecidableEq

/-- The content of a layer. -/
inductive Payload where
  | text (content : TextContent)
  | image (source : String)
  | rotator (needle : Needle)
  | bar (content : BarContent)
  | shape (content : ShapeContent)
deriving DecidableEq

namespace Payload

/-- The kind of layer that a content belongs to. -/
def kind : Payload → LayerKind
  | text _ => .text
  | image _ => .image
  | rotator _ => .rotator
  | bar _ => .bar
  | shape _ => .shape

/-- The file that a raster layer shows. -/
def imageSource? : Payload → Option String
  | image source => some source
  | rotator needle => some needle.source
  | text _ | bar _ | shape _ => none

end Payload

/-- The canvas that a skin is anchored to. The backdrop is seen in the editor only. -/
structure Background where
  position : Point := ⟨400, 200⟩
  width : Float := 400
  height : Float := 300
  backdropColor : String := "#FFFFFF"
deriving DecidableEq

/-- The extent of the canvas. -/
def Background.size (b : Background) : Size :=
  ⟨b.width, b.height⟩

/-- A layer with its geometry. -/
structure LayerSnapshot where
  id : UInt64 := 0
  name : String
  /-- The measure bound to the layer. -/
  measure : Option String := none
  payload : Payload
  geometry : Geometry
  /-- Whether the editor shows the layer. -/
  visible : Bool := true
  /-- Whether the editor keeps the layer from being picked. -/
  locked : Bool := false
deriving DecidableEq

/-- The kind of a layer. -/
def LayerSnapshot.kind (l : LayerSnapshot) : LayerKind :=
  l.payload.kind

/-- A canvas with its layers, the lowest first. -/
structure Snapshot where
  background : Background
  layers : List LayerSnapshot
deriving DecidableEq

end WidgetSkin
