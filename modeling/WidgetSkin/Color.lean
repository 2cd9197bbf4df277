import WidgetSkin.Text.Blank
import WidgetSkin.Decimal.Binary

/-!
# Colours

Colours are edited as hexadecimal texts with an opacity and written to a skin file as four
numbers from 0 to 255.

## Main definitions

* `Rgb` — the three channels of a colour.
* `Rgb.ofHex?` — reads `#RRGGBB`, `#RGB` and both without the hash, between blanks.
* `alpha` — the opacity as a channel.
* `encodeColor` — the four numbers of a colour and an opacity.
-/

namespace WidgetSkin

/-- The red, green and blue channels of a colour. -/
structure Rgb where
  red : Fin 256
  green : Fin 256
  blue : Fin 256
deriving DecidableEq

namespace Rgb

/-- The value of a hexadecimal digit. -/
def hexDigit? (c : Char) : Option (Fin 16) :=
  if '0' ≤ c ∧ c ≤ '9' then some (Fin.ofNat 16 (c.toNat - '0'.toNat))
  else if 'a' ≤ c ∧ c ≤ 'f' then some (Fin.ofNat 16 (c.toNat - 'a'.toNat + 10))
  else if 'A' ≤ c ∧ c ≤ 'F' then some (Fin.ofNat 16 (c.toNat - 'A'.toNat + 10))
  else none

/-- The channel written with two hexadecimal digits. -/
def channel (high low : Fin 16) : Fin 256 :=
  ⟨16 * high + low, by omega⟩

/-- The colour of a text without its hash: three pairs of digits, or three digits that are
doubled. -/
def ofDigits? (cs : List Char) : Option Rgb :=
  match cs.mapM hexDigit? with
  | some [a, b, c, d, e, f] => some ⟨channel a b, channel c d, channel e f⟩
  | some [a, b, c] => some ⟨channel a a, channel b b, channel c c⟩
  | _ => none

/-- Drop one hash in front. -/
def dropHash : List Char → List Char
  | '#' :: cs => cs
  | cs => cs

/-- The colour of a hexadecimal text. -/
def ofHex? (s : String) : Option Rgb :=
  ofDigits? (dropHash (Text.trim s.toList))

end Rgb

/-- A number held between zero and one. -/
def clampUnit (x : Float) : Float :=
  if x < 0 then 0 else if 1 < x then 1 else x

/-- The opacity as a channel: 255 times the opacity, rounded to the nearest integer. -/
def alpha (opacity : Float) : Nat :=
  (Decimal.Binary.ofMagnitude (Decimal.magnitude (clampUnit opacity * 255))).roundHalfUp

/-- The colour written for everything that is no colour or no opacity. -/
def opaqueBlack : String := "0,0,0,255"

/-- The four numbers of a colour text and an opacity. -/
def encodeColor (hex : String) (opacity : Float) : String :=
  match Rgb.ofHex? hex with
  | some c =>
    if opacity.isFinite then
      ",".intercalate [toString c.red.val, toString c.green.val, toString c.blue.val,
        toString (alpha opacity)]
    else opaqueBlack
  | none => opaqueBlack

end WidgetSkin
