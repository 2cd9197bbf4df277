import WidgetSkin.Bytes

/-!
# Chunks of a PNG image

Behind its signature an image is a row of chunks, each of them a length, a type, as many bytes
of data and a check sum over type and data.

## Main definitions

* `Role` — what a chunk is for.
* `Role.allows` — the lengths that a chunk may have.
* `Chunk` — a chunk of a file.
* `Chunk.at?` — the chunk at a place of a file.
* `Chunk.isIntact` — whether the check sum is right.
-/

namespace WidgetSkin.Png

/-! ## Check sums -/

/-- One bit of the division behind the check sum. -/
def crcBit (n : UInt32) : UInt32 :=
  if n % 2 = 1 then (0xEDB88320 : UInt32) ^^^ (n >>> 1) else n >>> 1

/-- The check sum continued over one byte. -/
def crcByte (n : UInt32) (b : UInt8) : UInt32 :=
  (List.range 8).foldl (fun n _ => crcBit n) (n ^^^ b.toUInt32)

/-- The check sum that ends a chunk, CRC-32 of its type and data. -/
def checkSum (bytes : List UInt8) : Nat :=
  (bytes.foldl crcByte 0xFFFFFFFF ^^^ (0xFFFFFFFF : UInt32)).toNat

/-! ## Roles -/

/-- What a chunk is for. -/
inductive Role where
  | header
  | imageData
  | palette
  /-- Where a frame of an animation stands, and how it is drawn. -/
  | frame
  /-- Which colours are transparent. -/
  | transparency
  /-- The colour to show behind the image. -/
  | background
  /-- The colour space, by its number in a list of them. -/
  | colorSpace
  /-- A description of the colour space. -/
  | profile
  /-- A remark for readers. -/
  | text
  /-- Data of the camera. -/
  | metadata
  /-- Any other chunk that a reader may pass over. -/
  | optional
  /-- A chunk that does not belong between header and image data. -/
  | obstacle
deriving DecidableEq

namespace Role

/-- The role of the chunks of a type. A reader may pass over types whose first letter is
small. -/
def ofType (type : List UInt8) : Role :=
  match String.ofList (type.map fun b => Char.ofNat b.toNat) with
  | "IHDR" => header
  | "IDAT" => imageData
  | "PLTE" => palette
  | "fcTL" => frame
  | "fdAT" => obstacle
  | "tRNS" => transparency
  | "bKGD" => background
  | "cICP" => colorSpace
  | "iCCP" => profile
  | "tEXt" | "zTXt" | "iTXt" => text
  | "eXIf" => metadata
  | _ => if type.head?.any fun letter => letter.toNat.testBit 5 then optional else obstacle

/-- Whether a chunk may have a length. -/
def allows (role : Role) (length : Nat) : Bool :=
  match role with
  | header => length == 13
  | palette => 3 ≤ length && length ≤ 768
  | frame => length == 26
  | transparency => 1 ≤ length && length ≤ 256
  | background => 1 ≤ length && length ≤ 6
  | colorSpace => length == 4
  | _ => true

/-- Whether a reader may not pass over a chunk of the role, even if it is damaged. -/
def isRequired : Role → Bool
  | header | imageData | palette | obstacle => true
  | _ => false

end Role

/-! ## Chunks -/

/-- A chunk of a file. -/
structure Chunk where
  /-- The four bytes of its type. -/
  type : List UInt8
  /-- Its data. -/
  data : List UInt8
  /-- The check sum found behind the data. -/
  sum : Nat
deriving DecidableEq

namespace Chunk

/-- The type of the chunk that begins at `start`. -/
def typeAt? (file : ByteArray) (start : Nat) : Option (List UInt8) :=
  (Bytes.slice? file (start + 4) 4).map ByteArray.toList

/-- The chunk at `start`, if all of it is there. -/
def at? (file : ByteArray) (start : Nat) : Option Chunk := do
  let length ← Bytes.word32? file start
  let type ← typeAt? file start
  let data ← Bytes.slice? file (start + 8) length
  let sum ← Bytes.word32? file (start + 8 + length)
  return ⟨type, data.toList, sum⟩

/-- How many bytes a chunk takes: twelve besides its data. -/
def size (c : Chunk) : Nat :=
  12 + c.data.length

/-- What the chunk is for. -/
def role (c : Chunk) : Role :=
  .ofType c.type

/-- Whether the length is one that the role allows. -/
def fits (c : Chunk) : Bool :=
  c.role.allows c.data.length

/-- Whether the check sum is that of type and data. -/
def isIntact (c : Chunk) : Bool :=
  c.sum == checkSum (c.type ++ c.data)

/-- The number of `count` bytes of the data from `start` on. -/
def number (c : Chunk) (start count : Nat) : Nat :=
  Bytes.number ((c.data.drop start).take count)

end Chunk

end WidgetSkin.Png
