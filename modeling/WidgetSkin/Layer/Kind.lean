/-!
# Kinds and identifiers of layers

## Main definitions

* `LayerKind` — the closed set of layer kinds.
* `LayerId` — the identifier of a layer in an editor.
* `Tool` — what a click on the working surface does.
-/

namespace WidgetSkin

/-- What a layer shows. Each kind is drawn by one type of meter. -/
inductive LayerKind where
  /-- A line of text. -/
  | text
  /-- A raster image. -/
  | image
  /-- An image that a measure turns between two angles. -/
  | rotator
  /-- A box that a measure fills. -/
  | bar
  /-- A plain shape. -/
  | shape
deriving DecidableEq, Repr

namespace LayerKind

/-- All kinds. -/
def all : List LayerKind := [text, image, rotator, bar, shape]

/-- The word for a kind, with which the names of new layers begin. -/
def label : LayerKind → String
  | text => "Text"
  | image => "Image"
  | rotator => "Rotator"
  | bar => "Bar"
  | shape => "Shape"

/-- The kind with a label. -/
def ofLabel? (s : String) : Option LayerKind :=
  all.find? fun k => k.label == s

/-- Whether layers of this kind show a file and are placed by their centre. -/
def isRaster : LayerKind → Bool
  | image | rotator => true
  | text | bar | shape => false

end LayerKind

/-- The identifier of a layer. -/
structure LayerId where
  val : Nat
deriving DecidableEq

/-- The text of an identifier in messages. -/
def LayerId.text (id : LayerId) : String :=
  "layer_" ++ toString id.val

/-- What a click on the working surface does: pick a layer or place one of a kind. -/
inductive Tool where
  | select
  | text
  | image
  | rotator
  | bar
deriving DecidableEq

namespace Tool

/-- The kind of layer that a tool places. -/
def placementKind? : Tool → Option LayerKind
  | select => none
  | text => some .text
  | image => some .image
  | rotator => some .rotator
  | bar => some .bar

/-- The word for a tool. -/
def label : Tool → String
  | select => "Select"
  | text => "Text"
  | image => "Image"
  | rotator => "Rotator"
  | bar => "Bar"

/-- All tools. -/
def all : List Tool := [select, text, image, rotator, bar]

/-- The tool with a label. -/
def ofLabel? (s : String) : Option Tool :=
  all.find? fun t => t.label == s

end Tool

end WidgetSkin
