/-!
# Numbers and slices in byte sequences

Reading from the byte sequences of binary files, where every read may lie outside. All numbers
have their high byte first.

## Main definitions

* `Bytes.slice?` — a part of a sequence.
* `Bytes.word16?`, `Bytes.word32?` — the number at a place.
-/

namespace WidgetSkin.Bytes

/-- The `length` bytes from `start` on. -/
def slice? (bytes : ByteArray) (start length : Nat) : Option ByteArray :=
  if start + length ≤ bytes.size then some (bytes.extract start (start + length)) else none

/-- All bytes from `start` on. -/
def tail? (bytes : ByteArray) (start : Nat) : Option ByteArray :=
  slice? bytes start (bytes.size - start)

/-- The number that a row of bytes stands for. -/
def number (bytes : List UInt8) : Nat :=
  bytes.foldl (fun n b => n * 256 + b.toNat) 0

/-- The number of two bytes at `start`. -/
def word16? (bytes : ByteArray) (start : Nat) : Option Nat :=
  (slice? bytes start 2).map fun b => number b.toList

/-- The number of four bytes at `start`. -/
def word32? (bytes : ByteArray) (start : Nat) : Option Nat :=
  (slice? bytes start 4).map fun b => number b.toList

end WidgetSkin.Bytes
