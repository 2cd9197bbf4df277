import WidgetSkin.Font.Cache
import WidgetSkin.Layer.Payload

/-!
# Asset plans

The fonts and images that a set of layers needs, each once and in the order of first use. An
image is known in a skin by its place in the plan.

## Main definitions

* `AssetPlan` — the fonts and images.
* `AssetPlan.ofLayers` — the plan of a list of layers.
* `AssetPlan.imageIndex?` — the place of an image.
* `imageReference` — the name of an image in a skin file.
-/

namespace WidgetSkin

/-- The directory of fonts among the resources of a skin. -/
def fontsDirectory : String := "Fonts"

/-- The directory of images among the resources of a skin. -/
def imagesDirectory : String := "Images"

/-- The file name of the image at a place of the plan. -/
def imageFileName (index : Nat) : String :=
  toString index ++ ".png"

/-- The name in a skin file of the image at a place of the plan. -/
def imageReference (index : Nat) : String :=
  "#@#" ++ imagesDirectory ++ "/" ++ imageFileName index

/-- The fonts and images that a set of layers needs. -/
structure AssetPlan where
  /-- File names of fonts. -/
  fonts : List String := []
  /-- Paths of images. -/
  images : List String := []
deriving DecidableEq

namespace AssetPlan

/-- The place of an image in the plan. -/
def imageIndex? (plan : AssetPlan) (source : String) : Option Nat :=
  plan.images.findIdx? fun p => Path.SamePlace p source

/-- The plan with one more font, unless it is there. -/
def addFont (plan : AssetPlan) (fileName : String) : AssetPlan :=
  if plan.fonts.contains fileName then plan
  else { plan with fonts := plan.fonts ++ [fileName] }

/-- The plan with one more image, unless one at the same place is there. -/
def addImage (plan : AssetPlan) (source : String) : AssetPlan :=
  if (plan.imageIndex? source).isSome then plan
  else { plan with images := plan.images ++ [source] }

/-- The file of the font that a layer needs, if the font is known. -/
def fontOf? (fonts : FontCache) (layer : LayerSnapshot) : Option String :=
  match layer.payload with
  | .text content => (fonts.find? content.fontName).map FontEntry.fileName
  | .image _ | .rotator _ | .bar _ | .shape _ => none

/-- The plan with what one more layer needs. -/
def addLayer (fonts : FontCache) (plan : AssetPlan) (layer : LayerSnapshot) : AssetPlan :=
  let plan := (fontOf? fonts layer).elim plan plan.addFont
  layer.payload.imageSource?.elim plan plan.addImage

/-- The plan of a list of layers. -/
def ofLayers (fonts : FontCache) (layers : List LayerSnapshot) : AssetPlan :=
  layers.foldl (addLayer fonts) {}

end AssetPlan

end WidgetSkin
