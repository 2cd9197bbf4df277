import WidgetSkin.Deflate.Code

/-!
# Inflating

A compressed text is a row of blocks. The bytes of a block stand as they are, or it is a row of
items: single bytes and repetitions of bytes that came before, written in two prefix codes that
are fixed or stand in front of the items.

## Main definitions

* `Item` — a single byte, a repetition or the end of a block.
* `Codes` — the two codes that items are written in.
* `inflate?` — the text of a row of blocks, and what follows it.
-/

namespace WidgetSkin.Deflate

/-! ## Items -/

/-- One item of a compressed block. -/
inductive Item where
  /-- A single byte. -/
  | byte (b : UInt8)
  /-- As many bytes as `length`, each the one that came `distance` bytes before. -/
  | repetition (length distance : Nat)
  /-- The end of the block. -/
  | ending

/-- The codes that items are written in. -/
structure Codes where
  /-- Single bytes, the end of the block, and lengths. -/
  lengths : Code
  /-- Distances. -/
  distances : Code

/-- Numbers from `first` on, told apart by `places` bits. -/
structure Range where
  first : Nat
  places : Nat

/-- The ranges with numbers of places that ascend from one place to the next. -/
def Range.row (first : Nat) : (places : List Nat) → List Range
  | [] => []
  | n :: later => ⟨first, n⟩ :: row (first + Nat.pow 2 n) later

/-- The lengths that the symbols from 257 on stand for. -/
def lengthRanges : List Range :=
  Range.row 3 [0, 0, 0, 0, 0, 0, 0, 0, 1, 1, 1, 1, 2, 2, 2, 2, 3, 3, 3, 3, 4, 4, 4, 4, 5, 5, 5, 5]
    ++ [⟨258, 0⟩]

/-- The lengths that a symbol above 255 stands for. Symbol 256 has none, nor have the two symbols
behind the last range, which only the fixed codes know. -/
def lengthRange? (symbol : Nat) : Option Range :=
  if symbol ≤ 256 then none else lengthRanges[symbol - 257]?

/-- The distances that the symbols from 0 on stand for. -/
def distanceRanges : List Range :=
  Range.row 1 [0, 0, 0, 0, 1, 1, 2, 2, 3, 3, 4, 4, 5, 5, 6, 6, 7, 7, 8, 8, 9, 9, 10, 10, 11, 11,
    12, 12, 13, 13]

/-- The number in a range that the first bits stand for, and the rest. -/
def Range.take (r : Range) (bits : Bits) : Option (Nat × Bits) :=
  (bits.takeNumber r.places).map fun (n, rest) => (r.first + n, rest)

/-- The distance in front of a row of bits, and the rest. -/
def takeDistance (code : Code) (bits : Bits) : Option (Nat × Bits) := do
  let (symbol, bits) ← code.decode bits
  let range ← distanceRanges[symbol]?
  range.take bits

/-- The item in front of a row of bits, and the rest. A symbol that stands neither for a byte nor
for a length ends the block, whichever it is. -/
def takeItem (codes : Codes) (bits : Bits) : Option (Item × Bits) := do
  let (symbol, bits) ← codes.lengths.decode bits
  if symbol < 256 then some (.byte symbol.toUInt8, bits)
  else
    match lengthRange? symbol with
    | none => some (.ending, bits)
    | some range =>
      let (length, bits) ← range.take bits
      let (distance, bits) ← takeDistance codes.distances bits
      return (.repetition length distance, bits)

/-- A text continued by `length` bytes, each the one that came `distance` bytes before. -/
def repeatBytes (distance : Nat) : (length : Nat) → Array UInt8 → Option (Array UInt8)
  | 0, text => some text
  | length + 1, text =>
    if distance ≤ text.size then do
      let b ← text[text.size - distance]?
      repeatBytes distance length (text.push b)
    else none

/-! ### Every item takes a bit -/

theorem Range.length_le_of_take {r : Range} {n : Nat} {bits rest : Bits}
    (h : r.take bits = some (n, rest)) : rest.length ≤ bits.length := by
  obtain ⟨⟨m, rest'⟩, found, same⟩ := Option.map_eq_some_iff.1 h
  simp only [Prod.mk.injEq] at same
  exact Bits.length_le_of_takeNumber (found.trans (by rw [same.2]))

theorem length_le_of_takeDistance {code : Code} {n : Nat} {bits rest : Bits}
    (h : takeDistance code bits = some (n, rest)) : rest.length ≤ bits.length := by
  simp only [takeDistance, Option.bind_eq_bind, Option.bind_eq_some_iff, Prod.exists] at h
  obtain ⟨symbol, between, first, range, -, next⟩ := h
  have := Code.length_lt_of_decode first
  have := Range.length_le_of_take next
  omega

theorem length_lt_of_takeItem {codes : Codes} {item : Item} {bits rest : Bits}
    (h : takeItem codes bits = some (item, rest)) : rest.length < bits.length := by
  simp only [takeItem, Option.bind_eq_bind, Option.bind_eq_some_iff, Prod.exists] at h
  obtain ⟨symbol, between, first, h⟩ := h
  have := Code.length_lt_of_decode first
  split at h
  · simp_all
  · split at h
    · simp_all
    · simp only [Option.bind_eq_some_iff, Prod.exists, Option.pure_def, Option.some.injEq,
        Prod.mk.injEq] at h
      obtain ⟨length, behindLength, second, distance, last, third, -, rfl⟩ := h
      have := Range.length_le_of_take second
      have := length_le_of_takeDistance third
      omega

/-! ## Blocks -/

/-- A text continued by the items in front of a row of bits up to the end of the block, and the
rest. -/
def takeItems (codes : Codes) (bits : Bits) (text : Array UInt8) : Option (Array UInt8 × Bits) :=
  match _h : takeItem codes bits with
  | none => none
  | some (.ending, rest) => some (text, rest)
  | some (.byte b, rest) => takeItems codes rest (text.push b)
  | some (.repetition length distance, rest) =>
    match repeatBytes distance length text with
    | some text => takeItems codes rest text
    | none => none
termination_by bits.length
decreasing_by all_goals exact length_lt_of_takeItem (by assumption)

/-- The codes of a block that does not bring its own. -/
def fixedCodes : Option Codes := do
  return ⟨← Code.full? (List.replicate 144 8 ++ List.replicate 112 9 ++ List.replicate 24 7 ++
    List.replicate 8 8), ← Code.full? (List.replicate 32 5)⟩

/-- The order in which the lengths of the code for lengths stand. -/
def lengthOrder : List Nat :=
  [16, 17, 18, 0, 8, 7, 9, 6, 10, 5, 11, 4, 12, 3, 13, 2, 14, 1, 15]

/-- The first lengths of the code for lengths, `count` numbers of three bits, and the rest. -/
def takeOrdered : (count : Nat) → Bits → Option (List Nat × Bits)
  | 0, bits => some ([], bits)
  | count + 1, bits => do
    let (n, bits) ← bits.takeNumber 3
    let (ns, bits) ← takeOrdered count bits
    return (n :: ns, bits)

/-- What a symbol of the code for lengths stands for behind the lengths `read`, the last one
first: a length, how often it comes besides, and the rest of the bits. -/
def takeLength (symbol : Nat) (read : List Nat) (bits : Bits) : Option (Nat × Nat × Bits) :=
  match symbol with
  | 16 => do
    let previous ← read.head?
    let (n, bits) ← bits.takeNumber 2
    return (previous, n + 2, bits)
  | 17 => (bits.takeNumber 3).map fun (n, bits) => (0, n + 2, bits)
  | 18 => (bits.takeNumber 7).map fun (n, bits) => (0, n + 10, bits)
  | length => some (length, 0, bits)

/-- The next `count` lengths behind those `read`, the last one first, and the rest. -/
def takeLengths (code : Code) (count : Nat) (read : List Nat) (bits : Bits) :
    Option (List Nat × Bits) :=
  match count with
  | 0 => some (read.reverse, bits)
  | count + 1 => do
    let (symbol, bits) ← code.decode bits
    let (length, times, bits) ← takeLength symbol read bits
    if times ≤ count then
      takeLengths code (count - times) (List.replicate (times + 1) length ++ read) bits
    else none
termination_by count
decreasing_by omega

/-- The codes in front of the items of a block, and the rest. The end of the block has to have
a code. -/
def takeCodes (bits : Bits) : Option (Codes × Bits) := do
  let (symbols, bits) ← bits.takeNumber 5
  let (distances, bits) ← bits.takeNumber 5
  let (ordered, bits) ← bits.takeNumber 4
  if 286 < symbols + 257 ∨ 30 < distances + 1 then none
  else
    let (written, bits) ← takeOrdered (ordered + 4) bits
    let lengths := (List.range 19).map fun n => written.getD (lengthOrder.idxOf n) 0
    let code ← Code.full? lengths
    let (lengths, bits) ← takeLengths code (symbols + 257 + (distances + 1)) [] bits
    let (forItems, forDistances) := lengths.splitAt (symbols + 257)
    if forItems.getD 256 0 = 0 then none
    else return (⟨← Code.full? forItems, ← Code.sparse? forDistances⟩, bits)

/-- A text continued by a block whose bytes stand as they are, and the rest. Their number is
written twice, the second time with every bit turned over. -/
def takeStored (bits : Bits) (text : Array UInt8) : Option (Array UInt8 × Bits) := do
  let (length, bits) ← bits.align.takeNumber 16
  let (turned, bits) ← bits.takeNumber 16
  if length + turned = 0xFFFF then
    let (bytes, bits) ← bits.takeBytes length
    return (text ++ bytes.toArray, bits)
  else none

/-- A text continued by the block of a kind, and the rest. -/
def takeBlock (kind : Nat) (bits : Bits) (text : Array UInt8) : Option (Array UInt8 × Bits) :=
  match kind with
  | 0 => takeStored bits text
  | 1 => do takeItems (← fixedCodes) bits text
  | 2 => do
    let (codes, bits) ← takeCodes bits
    takeItems codes bits text
  | _ => none

/-! ### No block gives bits back -/

theorem length_le_of_takeItems {codes : Codes} {bits rest : Bits} {text after : Array UInt8}
    (h : takeItems codes bits text = some (after, rest)) : rest.length ≤ bits.length := by
  fun_induction takeItems codes bits text with
  | case1 => simp at h
  | case2 bits text rest' found =>
    simp only [Option.some.injEq, Prod.mk.injEq] at h
    rw [← h.2]
    exact Nat.le_of_lt (length_lt_of_takeItem found)
  | case3 bits text b rest' found ih =>
    have := ih h
    have := length_lt_of_takeItem found
    omega
  | case4 bits text length distance rest' found text' again ih =>
    have := ih h
    have := length_lt_of_takeItem found
    omega
  | case5 => simp at h

theorem length_le_of_takeOrdered {count : Nat} {ns : List Nat} {bits rest : Bits}
    (h : takeOrdered count bits = some (ns, rest)) : rest.length ≤ bits.length := by
  induction count generalizing bits ns with
  | zero => simp_all [takeOrdered]
  | succ count ih =>
    simp only [takeOrdered, Option.bind_eq_bind, Option.bind_eq_some_iff, Prod.exists,
      Option.pure_def, Option.some.injEq, Prod.mk.injEq] at h
    obtain ⟨n, between, first, more, rest', next, -, rfl⟩ := h
    exact Nat.le_trans (ih next) (Bits.length_le_of_takeNumber first)

theorem length_le_of_takeLength {symbol length times : Nat} {read : List Nat} {bits rest : Bits}
    (h : takeLength symbol read bits = some (length, times, rest)) :
    rest.length ≤ bits.length := by
  unfold takeLength at h
  split at h
  · simp only [Option.bind_eq_bind, Option.bind_eq_some_iff, Prod.exists, Option.pure_def,
      Option.some.injEq, Prod.mk.injEq] at h
    obtain ⟨previous, -, n, rest', found, -, -, rfl⟩ := h
    exact Bits.length_le_of_takeNumber found
  · obtain ⟨⟨n, rest'⟩, found, same⟩ := Option.map_eq_some_iff.1 h
    simp only [Prod.mk.injEq] at same
    exact Bits.length_le_of_takeNumber (found.trans (by rw [same.2.2]))
  · obtain ⟨⟨n, rest'⟩, found, same⟩ := Option.map_eq_some_iff.1 h
    simp only [Prod.mk.injEq] at same
    exact Bits.length_le_of_takeNumber (found.trans (by rw [same.2.2]))
  · simp_all

theorem length_le_of_takeLengths {code : Code} {count : Nat} {read lengths : List Nat}
    {bits rest : Bits} (h : takeLengths code count read bits = some (lengths, rest)) :
    rest.length ≤ bits.length := by
  induction count using Nat.strongRecOn generalizing read bits with
  | ind count ih =>
    unfold takeLengths at h
    split at h
    · simp_all
    · next count =>
      simp only [Option.bind_eq_bind, Option.bind_eq_some_iff, Prod.exists] at h
      obtain ⟨symbol, behindSymbol, first, length, times, behindLength, second, h⟩ := h
      have := Code.length_lt_of_decode first
      have := length_le_of_takeLength second
      split at h
      · have := ih (count - times) (by omega) h
        omega
      · simp at h

theorem length_le_of_takeCodes {codes : Codes} {bits rest : Bits}
    (h : takeCodes bits = some (codes, rest)) : rest.length ≤ bits.length := by
  simp only [takeCodes, Option.bind_eq_bind, Option.bind_eq_some_iff, Prod.exists] at h
  obtain ⟨symbols, bits₁, h₁, distances, bits₂, h₂, ordered, bits₃, h₃, h⟩ := h
  split at h
  · simp at h
  · simp only [Option.bind_eq_some_iff, Prod.exists] at h
    obtain ⟨written, bits₄, h₄, code, -, lengths, bits₅, h₅, h⟩ := h
    split at h
    · simp at h
    · simp only [Option.bind_eq_some_iff, Option.pure_def, Option.some.injEq,
        Prod.mk.injEq] at h
      obtain ⟨forItems, -, forDistances, -, -, rfl⟩ := h
      have := Bits.length_le_of_takeNumber h₁
      have := Bits.length_le_of_takeNumber h₂
      have := Bits.length_le_of_takeNumber h₃
      have := length_le_of_takeOrdered h₄
      have := length_le_of_takeLengths h₅
      omega

theorem length_le_of_takeStored {bits rest : Bits} {text after : Array UInt8}
    (h : takeStored bits text = some (after, rest)) : rest.length ≤ bits.length := by
  simp only [takeStored, Option.bind_eq_bind, Option.bind_eq_some_iff, Prod.exists] at h
  obtain ⟨length, bits₁, h₁, turned, bits₂, h₂, h⟩ := h
  split at h
  · simp only [Option.bind_eq_some_iff, Prod.exists, Option.pure_def, Option.some.injEq,
      Prod.mk.injEq] at h
    obtain ⟨bytes, bits₃, h₃, -, rfl⟩ := h
    have := Bits.length_align_le bits
    have := Bits.length_le_of_takeNumber h₁
    have := Bits.length_le_of_takeNumber h₂
    have := Bits.length_le_of_takeBytes h₃
    omega
  · simp at h

theorem length_le_of_takeBlock {kind : Nat} {bits rest : Bits} {text after : Array UInt8}
    (h : takeBlock kind bits text = some (after, rest)) : rest.length ≤ bits.length := by
  unfold takeBlock at h
  split at h
  · exact length_le_of_takeStored h
  · simp only [Option.bind_eq_bind, Option.bind_eq_some_iff] at h
    obtain ⟨codes, -, h⟩ := h
    exact length_le_of_takeItems h
  · simp only [Option.bind_eq_bind, Option.bind_eq_some_iff, Prod.exists] at h
    obtain ⟨codes, behind, found, h⟩ := h
    exact Nat.le_trans (length_le_of_takeItems h) (length_le_of_takeCodes found)
  · simp at h

/-! ## Texts -/

/-- `text` continued by a row of blocks, the last of which is marked, and what follows it. -/
def inflate? (bits : Bits) (text : Array UInt8) : Option (Array UInt8 × Bits) :=
  match bits with
  | last :: low :: high :: rest =>
    match _h : takeBlock (2 * high.toNat + low.toNat) rest text with
    | some (text, behind) => if last then some (text, behind) else inflate? behind text
    | none => none
  | _ => none
termination_by bits.length
decreasing_by
  have := length_le_of_takeBlock _h
  simp only [List.length_cons]
  omega

end WidgetSkin.Deflate
