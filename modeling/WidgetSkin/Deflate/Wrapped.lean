import WidgetSkin.Deflate.Inflate

/-!
# Wrapped compressed texts

A compressed text between two bytes that name the method and a check sum of the text.

## Main definitions

* `checkSum` — the check sum.
* `unwrap?` — the text inside.
-/

namespace WidgetSkin.Deflate

/-- The check sum of a text, Adler-32. -/
def checkSum (text : Array UInt8) : Nat :=
  let (low, high) := text.foldl
    (fun (low, high) b => let low := (low + b.toNat) % 65521; (low, (high + low) % 65521)) (1, 0)
  high * 65536 + low

/-- Whether two bytes announce a text compressed with a window of at most 32 KiB that needs no
other text beside it. -/
def isHeader (method flags : Nat) : Bool :=
  method % 16 == 8 && method / 16 ≤ 7 && !flags.testBit 5 && (256 * method + flags) % 31 == 0

/-- The text inside a wrapped one; what follows the check sum does not matter. -/
def unwrap? : List UInt8 → Option (Array UInt8)
  | method :: flags :: bytes =>
    if isHeader method.toNat flags.toNat then do
      let (text, bits) ← inflate? (Bits.ofBytes bytes) #[]
      let (sum, _) ← bits.align.takeBytes 4
      if sum.foldl (fun n b => 256 * n + b.toNat) 0 = checkSum text then some text else none
    else none
  | _ => none

end WidgetSkin.Deflate
