import WidgetSkin.Bytes
import WidgetSkin.Text.Encoding
import WidgetSkin.Font.Face

/-!
# Font files

The name and style of the face in a TrueType or OpenType file. The file is a directory of
tables; the names come from the table `name`, the style from `OS/2` and `post`.

## Main definitions

* `Font.table?` — the bytes of a table.
* `Font.NameRecord`, `Font.nameRecords?` — the entries of the name table.
* `Font.family?` — the family name among them.
* `Font.face?` — family and style of the file.
-/

namespace WidgetSkin.Font

/-! ## The table directory -/

/-- The first four bytes of the files that are read: TrueType in two spellings, OpenType. -/
def magics : List Nat := [0x00010000, 0x74727565, 0x4F54544F]

/-- The bytes in front of the first directory entry. -/
def directoryStart : Nat := 12

/-- The bytes of a directory entry. -/
def directoryEntry : Nat := 16

/-- The number of tables, if the file has the right beginning and its directory is whole. -/
def tableCount? (file : ByteArray) : Option Nat := do
  let magic ← Bytes.word32? file 0
  let count ← Bytes.word16? file 4
  if magics.contains magic ∧ directoryStart + directoryEntry * count ≤ file.size then some count
  else none

/-- The tag of a directory entry. -/
def tagAt? (file : ByteArray) (index : Nat) : Option Nat :=
  Bytes.word32? file (directoryStart + directoryEntry * index)

/-- Halve a range of `size` entries from `base` on until one is left that a tag may have. -/
def search (file : ByteArray) (tag base size : Nat) : Nat :=
  if size ≤ 1 then base
  else
    let half := size / 2
    let middle := base + half
    let isBehind := (tagAt? file middle).any (tag < ·)
    search file tag (if isBehind then base else middle) (size - half)
termination_by size

/-- The bytes of the table with a tag, found by halving because the directory is sorted. A table
that leaves the file counts as absent. -/
def table? (file : ByteArray) (tag : Nat) : Option ByteArray := do
  let count ← tableCount? file
  let index := search file tag 0 count
  if index < count ∧ tagAt? file index = some tag then
    let entry := directoryStart + directoryEntry * index
    let start ← Bytes.word32? file (entry + 8)
    let length ← Bytes.word32? file (entry + 12)
    Bytes.slice? file start length
  else none

/-- The tag `name`. -/
def nameTag : Nat := 0x6E616D65

/-- The tag `OS/2`. -/
def metricsTag : Nat := 0x4F532F32

/-- The tag `post`. -/
def postTag : Nat := 0x706F7374

/-! ## Names -/

/-- An entry of the name table. -/
structure NameRecord where
  platform : Nat
  encoding : Nat
  language : Nat
  /-- What the name is for. -/
  nameId : Nat
  bytes : List UInt8

namespace NameRecord

/-- Whether the name is written in UTF-16. -/
def isUnicode (r : NameRecord) : Bool :=
  r.platform == 0 || (r.platform == 3 && (r.encoding == 0 || r.encoding == 1))

/-- Whether the name is written in Mac OS Roman. -/
def isMacRoman (r : NameRecord) : Bool :=
  r.platform == 1 && r.encoding == 0

/-- Whether the name is English as spoken in the United States. -/
def isEnglish (r : NameRecord) : Bool :=
  (r.platform == 3 && r.language == 0x409) || (r.isMacRoman && r.language == 0)

/-- The text of the name, if its encoding is known and its bytes follow it. -/
def text? (r : NameRecord) : Option String :=
  if r.isUnicode then Text.decodeUtf16 r.bytes
  else if r.isMacRoman then some (Text.decodeMacRoman r.bytes)
  else none

end NameRecord

/-- The bytes of a name record. -/
def recordLength : Nat := 12

/-- The name record at `start` in a name table; its bytes lie in `storage`. -/
def recordAt? (table storage : ByteArray) (start : Nat) : Option NameRecord := do
  let platform ← Bytes.word16? table start
  let encoding ← Bytes.word16? table (start + 2)
  let language ← Bytes.word16? table (start + 4)
  let nameId ← Bytes.word16? table (start + 6)
  let length ← Bytes.word16? table (start + 8)
  let offset ← Bytes.word16? table (start + 10)
  let bytes ← Bytes.slice? storage offset length
  if 4 < platform then none else some ⟨platform, encoding, language, nameId, bytes.toList⟩

/-- Where the records of a name table start; version 1 has language tags in front of them. -/
def recordsStart? (table : ByteArray) : Option Nat := do
  match ← Bytes.word16? table 0 with
  | 0 => some 6
  | 1 =>
    let tags ← Bytes.word16? table 6
    if 4 * tags < 0x10000 then some (8 + 4 * tags) else none
  | _ => none

/-- The results of a sequence of readings up to the first failure. -/
def untilFailure {α β : Type} (f : α → Option β) : List α → List β
  | [] => []
  | a :: as =>
    match f a with
    | some b => b :: untilFailure f as
    | none => []

/-- The records of a name table, up to the first that is damaged. -/
def nameRecords? (table : ByteArray) : Option (List NameRecord) := do
  let count ← Bytes.word16? table 2
  let declared ← Bytes.word16? table 4
  let start ← recordsStart? table
  let behind := start + recordLength * count
  let storage ← Bytes.tail? table (max behind declared)
  if table.size < behind then none
  else
    some (untilFailure (fun i => recordAt? table storage (start + recordLength * i))
      (List.range count))

/-- The family names with an identifier: all in UTF-16, and if none of these is English the
first one in Mac OS Roman. Each comes with whether it is English. -/
def familiesWith (records : List NameRecord) (nameId : Nat) : List (String × Bool) :=
  let named := records.filter fun r => r.nameId == nameId
  let read (r : NameRecord) := r.text?.map (·, r.isEnglish)
  let unicode := (named.filter NameRecord.isUnicode).filterMap read
  if unicode.any Prod.snd then unicode
  else unicode ++ ((named.filter NameRecord.isMacRoman).findSome? read).toList

/-- The identifier of typographic family names, which go before plain ones. -/
def typographicFamilyId : Nat := 16

/-- The identifier of plain family names. -/
def familyId : Nat := 1

/-- The identifier of the name for printers, which every usable file has. -/
def printerNameId : Nat := 6

/-- The family name: the first English one, or else the first. -/
def family? (records : List NameRecord) : Option String :=
  let families :=
    match familiesWith records typographicFamilyId with
    | [] => familiesWith records familyId
    | found => found
  ((families.find? Prod.snd).or families.head?).map Prod.fst

/-- Whether the first name for printers in a known encoding can be read. -/
def hasPrinterName (records : List NameRecord) : Bool :=
  let named := records.find? fun r =>
    r.nameId == printerNameId && (r.isUnicode || r.isMacRoman)
  (named.bind NameRecord.text?).isSome

/-! ## Style -/

/-- The length that an `OS/2` table has at least, by version. -/
def metricsLength? (version : Nat) : Option Nat :=
  [78, 86, 96, 96, 96, 100][version]?

/-- The weight from which on a face counts as bold. -/
def boldWeight : Nat := 700

/-- The style in an `OS/2` table; an italic and, from version 4 on, an oblique face are italic. -/
def metricsStyle? (table : ByteArray) : Option FontStyle := do
  let version ← Bytes.word16? table 0
  let least ← metricsLength? version
  if table.size < least then none
  else
    let weight ← Bytes.word16? table 4
    let selection ← Bytes.word16? table 62
    let isOblique := 4 ≤ version && selection.testBit 9
    some ⟨boldWeight ≤ weight, selection.testBit 0 || isOblique⟩

/-- Whether a `post` table tells of an italic angle. -/
def isSlanted (table : ByteArray) : Bool :=
  Bytes.word32? table 4 != some 0

/-- The style of the face in a file. -/
def style (file : ByteArray) : FontStyle :=
  let metrics := ((table? file metricsTag).bind metricsStyle?).getD {}
  let slanted := (table? file postTag).any isSlanted
  { metrics with italic := metrics.italic || slanted }

/-- Family and style of the face in a file. -/
def face? (file : ByteArray) : Option FaceName := do
  let table ← table? file nameTag
  let records ← nameRecords? table
  let family ← family? records
  if hasPrinterName records then some ⟨family, style file⟩ else none

end WidgetSkin.Font
