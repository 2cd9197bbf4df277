import WidgetSkin.Image.Preamble

/-!
# PNG images

The dimensions of a PNG image, read from its header. A file counts as an image if its header
is sound, if the chunks from there lead to image data, and if a row of the decoded image and
what is kept of those chunks are not too large; the image data themselves are not looked at.

## Main definitions

* `Png.dimensions?` — width and height.
-/

namespace WidgetSkin.Png

/-- Width and height of the image in a file. -/
def dimensions? (file : ByteArray) : Option (Nat × Nat) := do
  let (header, start) ← header? file
  let p ← preamble? file header {} start
  if header.rowSize p.hasTransparency + p.memory ≤ greatestMemory then
    some (header.width, header.height)
  else none

end WidgetSkin.Png
