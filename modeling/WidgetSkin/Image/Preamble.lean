import WidgetSkin.Deflate.Wrapped
import WidgetSkin.Image.Header

/-!
# What stands between the header and the image data

The chunks before the image data say how pixels become colours, and they may hold remarks. A
reader keeps some of them and needs memory for that. Most chunks that make no sense are passed
over; a few make the image unreadable.

## Main definitions

* `Preamble` — what the chunks have settled.
* `Preamble.extend?` — what is settled after one more chunk.
* `Preamble.memory` — how much memory the chunks take.
* `preamble?` — reads the chunks up to the image data.
-/

namespace WidgetSkin.Png

/-- What the chunks between header and image data have settled. -/
structure Preamble where
  hasPalette : Bool := false
  /-- Whether colours are transparent. -/
  hasTransparency : Bool := false
  hasColorSpace : Bool := false
  /-- Whether there was a description of the colour space, readable or not. -/
  hasProfile : Bool := false
  /-- How many frames of an animation have been described. -/
  frames : Nat := 0
  /-- The length of the longest chunk that was read. -/
  longest : Nat := 0
  /-- How many bytes of texts and of a description of the colour space are kept. -/
  kept : Nat := 0
deriving DecidableEq

/-! ## Contents of chunks -/

/-- Whether a chunk describes the `index`-th frame of an animation, which covers the image and
is cleared and drawn in a known way. -/
def isWholeFrame (h : Header) (index : Nat) (c : Chunk) : Bool :=
  c.number 0 4 == index && c.number 4 4 == h.width && c.number 8 4 == h.height &&
    c.number 12 4 == 0 && c.number 16 4 == 0 && c.number 24 1 ≤ 2 && c.number 25 1 ≤ 1

/-- Whether a chunk names transparent colours of an image that can have some; those of a
palette come behind it. -/
def givesTransparency (h : Header) (hasPalette : Bool) (c : Chunk) : Bool :=
  match h.colorType with
  | 0 => 2 ≤ c.data.length
  | 2 => 6 ≤ c.data.length
  | 3 => hasPalette
  | _ => false

/-- Whether a chunk names a colour space of red, green and blue, and its range of numbers is
the full or the narrow one. -/
def isColorSpace (c : Chunk) : Bool :=
  c.number 2 1 == 0 && c.number 3 1 ≤ 1

/-- The description of the colour space in a chunk, compressed behind a name of at most eighty
bytes. -/
def profile? (c : Chunk) : Option (Array UInt8) :=
  match c.data.span (· ≠ 0) with
  | (name, _ :: method :: text) =>
    if 1 ≤ name.length ∧ name.length ≤ 80 ∧ method = 0 then Deflate.unwrap? text else none
  | _ => none

/-! ## Memory -/

/-- How much memory an image may take before its data are decoded, 512 MiB. -/
def greatestMemory : Nat := 0x20000000

namespace Preamble

/-- The room for chunks that is there from the beginning. -/
def firstRoom : Nat := 128

/-- The room for a chunk of a length: the first room, doubled until the chunk fits. -/
def roomFor (length : Nat) : Nat :=
  max firstRoom (Nat.pow 2 ((length - 1).log2 + 1))

/-- How many bytes the chunks take: what is kept, and the room that was added for the longest
one. -/
def memory (p : Preamble) : Nat :=
  p.kept + (roomFor p.longest - firstRoom)

/-! ## One more chunk -/

/-- What is settled after a description of the colour space, which is kept if it can be read
and there is memory for it. -/
def addProfile (p : Preamble) (c : Chunk) : Preamble :=
  let size := (profile? c).elim 0 Array.size
  { p with
    hasProfile := true
    kept := if p.memory + size ≤ greatestMemory then p.kept + size else p.kept }

/-- What is settled after an intact chunk of a length that its role allows. There is one
palette; frames follow one another; a background out of a palette comes behind it. Of several
colour spaces and descriptions the first counts. -/
def settle? (h : Header) (p : Preamble) (c : Chunk) : Option Preamble :=
  match c.role with
  | .palette => if p.hasPalette then none else some { p with hasPalette := true }
  | .frame =>
    if isWholeFrame h p.frames c then some { p with frames := p.frames + 1 } else none
  | .transparency =>
    some { p with hasTransparency := p.hasTransparency || givesTransparency h p.hasPalette c }
  | .background => if h.isIndexed && !p.hasPalette then none else some p
  | .colorSpace =>
    if p.hasPalette || p.hasColorSpace then some p
    else if isColorSpace c then some { p with hasColorSpace := true }
    else none
  | .profile => some (if p.hasProfile then p else p.addProfile c)
  | .text => some { p with kept := p.kept + c.data.length }
  | .metadata | .optional => some p
  | .header | .imageData | .obstacle => none

/-- What is settled after one more chunk. A chunk without a meaning of its own is not even
read, nor is one of a wrong length, which only a palette and a frame may not have. A damaged
chunk is read and then passed over, unless it is required. -/
def extend? (h : Header) (p : Preamble) (c : Chunk) : Option Preamble :=
  if c.role = .optional then some p
  else if !c.fits then
    if c.role.isRequired || c.role = .frame then none else some p
  else
    let p := { p with longest := max p.longest c.data.length }
    if c.isIntact then p.settle? h c
    else if c.role.isRequired then none
    else some p

end Preamble

/-- What the chunks from `start` to the image data settle beyond `p`. -/
def preamble? (file : ByteArray) (h : Header) (p : Preamble) (start : Nat) : Option Preamble :=
  if file.size < start + 8 then none
  else if (Chunk.typeAt? file start).map Role.ofType = some .imageData then some p
  else
    match Chunk.at? file start with
    | some c =>
      match p.extend? h c with
      | some p => preamble? file h p (start + c.size)
      | none => none
    | none => none
termination_by file.size - start
decreasing_by simp only [Chunk.size]; omega

end WidgetSkin.Png
