/-!
# Byte encodings of text

Texts arrive as bytes in three encodings: UTF-8 in design files, big-endian UTF-16 and
Mac OS Roman in the name tables of fonts.

## Main definitions

* `Symbol` — a character, or the mark of a byte that belongs to none.
* `decodeUtf8` — the symbols of a byte sequence; no byte is refused, so that a reader may
  decide where an undecodable byte matters.
* `decodeUtf16` — the characters of big-endian UTF-16, if every unit belongs to one.
* `decodeMacRoman` — the characters of Mac OS Roman, which has one for every byte.
-/

namespace WidgetSkin.Text

/-! ## UTF-8 -/

/-- A character, or nothing for a byte that belongs to no character. -/
abbrev Symbol := Option Char

/-- The symbols of a text whose characters are known. -/
def symbols (s : String) : List Symbol :=
  s.toList.map some

/-- Whether `b` continues a character that an earlier byte began. -/
def isContinuation (b : UInt8) : Bool :=
  0x80 ≤ b && b < 0xC0

/-- The code point with leading bits `high` and the payloads of the continuation bytes. -/
def codePoint (high : Nat) (continuations : List UInt8) : Nat :=
  continuations.foldl (fun n b => n * 64 + b.toNat % 64) high

/-- A code point written with `least` as the smallest one of its length. -/
def scalar? (least n : Nat) : Symbol :=
  if least ≤ n ∧ n.isValidChar then some (.ofNat n) else none

/-- The character that begins with the byte `a`, and how many of the `bytes` behind `a` belong
to it. -/
def frontUtf8? (a : UInt8) (bytes : List UInt8) : Option (Char × Nat) :=
  if a < 0x80 then some (.ofNat a.toNat, 0)
  else if a < 0xC0 then none
  else if a < 0xE0 then continued 1 0x80 (a.toNat % 32)
  else if a < 0xF0 then continued 2 0x800 (a.toNat % 16)
  else if a < 0xF8 then continued 3 0x10000 (a.toNat % 8)
  else none
where
  continued (count least high : Nat) : Option (Char × Nat) :=
    let tail := bytes.take count
    if tail.length = count ∧ tail.all isContinuation then
      (scalar? least (codePoint high tail)).map (·, count)
    else none

/-- The symbols of a byte sequence in UTF-8. A byte at which no character begins gives `none`
and reading goes on behind it. -/
def decodeUtf8 (bytes : List UInt8) : List Symbol :=
  go 0 bytes
where
  /-- Pass over `skip` bytes and read on. -/
  go : Nat → List UInt8 → List Symbol
    | _, [] => []
    | skip + 1, _ :: bytes => go skip bytes
    | 0, a :: bytes =>
      match frontUtf8? a bytes with
      | some (c, count) => some c :: go count bytes
      | none => none :: go 0 bytes

/-! ## UTF-16 -/

/-- The units of a byte sequence, high byte first. An odd last byte is dropped. -/
def units16 : List UInt8 → List Nat
  | high :: low :: rest => (high.toNat * 256 + low.toNat) :: units16 rest
  | _ => []

/-- Whether a unit is the first of a pair. -/
def isHighSurrogate (n : Nat) : Bool :=
  0xD800 ≤ n && n < 0xDC00

/-- Whether a unit is the second of a pair. -/
def isLowSurrogate (n : Nat) : Bool :=
  0xDC00 ≤ n && n < 0xE000

/-- The character that a pair of surrogates stands for. -/
def ofSurrogates (high low : Nat) : Char :=
  .ofNat (0x10000 + (high - 0xD800) * 1024 + (low - 0xDC00))

/-- The characters of a sequence of units, if no surrogate stands alone. -/
def charsOfUnits16? : List Nat → Option (List Char)
  | [] => some []
  | n :: rest =>
    if isHighSurrogate n then
      match rest with
      | low :: rest =>
        if isLowSurrogate low then
          (charsOfUnits16? rest).map (ofSurrogates n low :: ·)
        else none
      | [] => none
    else if isLowSurrogate n then none
    else (charsOfUnits16? rest).map (.ofNat n :: ·)

/-- The text that a byte sequence holds in big-endian UTF-16. -/
def decodeUtf16 (bytes : List UInt8) : Option String :=
  (charsOfUnits16? (units16 bytes)).map .ofList

/-! ## Mac OS Roman -/

/-- The characters of the upper half of Mac OS Roman. -/
def macRomanUpper : List Char :=
  ("ÄÅÇÉÑÖÜáàâäãåçéèêëíìîïñóòôöõúùûü" ++
    "†°¢£§•¶ß®©™´¨≠ÆØ∞±≤≥¥µ∂∑∏π∫ªºΩæø" ++
    "¿¡¬√ƒ≈∆«»…\u00A0ÀÃÕŒœ–—“”‘’÷◊ÿŸ⁄€‹›ﬁﬂ" ++
    "‡·‚„‰ÂÊÁËÈÍÎÏÌÓÔ\uF8FFÒÚÛÙıˆ˜¯˘˙˚¸˝˛ˇ").toList

/-- The characters of Mac OS Roman at `0x11` to `0x14`, the keys of its keyboard. -/
def macRomanKeys : List Char :=
  "⌘⇧⌥⌃".toList

/-- The character of a byte in Mac OS Roman. -/
def ofMacRoman (b : UInt8) : Char :=
  let n := b.toNat
  if 0x80 ≤ n then macRomanUpper.getD (n - 0x80) ' '
  else if 0x11 ≤ n ∧ n ≤ 0x14 then macRomanKeys.getD (n - 0x11) ' '
  else .ofNat n

/-- The text that a byte sequence holds in Mac OS Roman. -/
def decodeMacRoman (bytes : List UInt8) : String :=
  .ofList (bytes.map ofMacRoman)

end WidgetSkin.Text
