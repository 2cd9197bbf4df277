import WidgetSkin.FileTree.Operations
import WidgetSkin.Geometry
import WidgetSkin.Image.Png

/-!
# The size of an image file

## Main definitions

* `imageSize?` — the size of the image that a path leads to. The extension alone says how the
  file is read.
-/

namespace WidgetSkin

/-- Whether a path has the extension of a PNG image. -/
def isPngName (path : String) : Bool :=
  match Path.lowerExtension? path with
  | some extension => extension == "png" || extension == "apng"
  | none => false

/-- The size in pixels of the image that a path leads to. -/
def imageSize? (t : FileTree) (path : String) : Option Size := do
  let content ← (t.read path).toOption
  if isPngName path then
    let (width, height) ← Png.dimensions? content
    return ⟨width.toFloat, height.toFloat⟩
  else none

end WidgetSkin
