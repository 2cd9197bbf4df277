import WidgetSkin.Image.Chunk

/-!
# Headers of PNG images

## Main definitions

* `Header` — the header.
* `Header.isSound` — whether its parts suit one another.
* `Header.rowSize` — how many bytes a row of the decoded image takes.
* `header?` — the header of a file.
-/

namespace WidgetSkin.Png

/-- The contents of the header. -/
structure Header where
  width : Nat
  height : Nat
  depth : Nat
  colorType : Nat
  compression : Nat
  filter : Nat
  interlace : Nat
deriving DecidableEq

/-- The bit depths that a colour type allows. -/
def depthsFor (colorType : Nat) : List Nat :=
  match colorType with
  | 0 => [1, 2, 4, 8, 16]
  | 3 => [1, 2, 4, 8]
  | 2 | 4 | 6 => [8, 16]
  | _ => []

/-- How many numbers a pixel of the decoded image has: transparent colours add one, and the
colours of a palette are put in. -/
def channels (colorType : Nat) (hasTransparency : Bool) : Nat :=
  match colorType with
  | 0 => if hasTransparency then 2 else 1
  | 2 | 3 => if hasTransparency then 4 else 3
  | 4 => 2
  | _ => 4

namespace Header

/-- Whether a header is sound. -/
def isSound (h : Header) : Bool :=
  h.width != 0 && h.height != 0 && (depthsFor h.colorType).contains h.depth &&
    h.compression == 0 && h.filter == 0 && h.interlace ≤ 1

/-- Whether the pixels of the image are places in a palette. -/
def isIndexed (h : Header) : Bool :=
  h.colorType == 3

/-- How many bytes a row of the decoded image takes; a number takes a byte at least. -/
def rowSize (h : Header) (hasTransparency : Bool) : Nat :=
  h.width * channels h.colorType hasTransparency * (if h.depth = 16 then 2 else 1)

/-- The header in a chunk. -/
def ofChunk? (c : Chunk) : Option Header :=
  let header : Header := ⟨c.number 0 4, c.number 4 4, c.number 8 1, c.number 9 1,
    c.number 10 1, c.number 11 1, c.number 12 1⟩
  if c.role = .header ∧ c.fits ∧ c.isIntact ∧ header.isSound then some header else none

end Header

/-- The bytes in front of the first chunk. -/
def signature : List UInt8 := [0x89, 0x50, 0x4E, 0x47, 0x0D, 0x0A, 0x1A, 0x0A]

/-- The header of a file, and the place where it ends. -/
def header? (file : ByteArray) : Option (Header × Nat) := do
  let start ← Bytes.slice? file 0 signature.length
  if start.toList ≠ signature then none
  else
    let chunk ← Chunk.at? file signature.length
    let header ← Header.ofChunk? chunk
    return (header, signature.length + chunk.size)

end WidgetSkin.Png
