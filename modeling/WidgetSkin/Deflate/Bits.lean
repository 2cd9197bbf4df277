/-!
# Bits of a compressed text

A compressed text is a row of bits, the lowest bit of each byte first. Numbers stand in it with
their lowest bit first.

## Main definitions

* `Bits.ofBytes` — the bits of a row of bytes.
* `Bits.takeNumber`, `Bits.takeBytes` — numbers and whole bytes in front of a row of bits.
* `Bits.align` — the bits from the next whole byte on.
-/

namespace WidgetSkin.Deflate

/-- A row of bits. -/
abbrev Bits := List Bool

namespace Bits

/-- The bits of a row of bytes. -/
def ofBytes (bytes : List UInt8) : Bits :=
  bytes.flatMap fun b => (List.range 8).map b.toNat.testBit

/-- The number that the first `count` bits stand for, and the rest. -/
def takeNumber : (count : Nat) → Bits → Option (Nat × Bits)
  | 0, bits => some (0, bits)
  | _ + 1, [] => none
  | count + 1, b :: bits => (takeNumber count bits).map fun (n, rest) => (2 * n + b.toNat, rest)

/-- The first `count` bytes, and the rest. -/
def takeBytes : (count : Nat) → Bits → Option (List UInt8 × Bits)
  | 0, bits => some ([], bits)
  | count + 1, bits => do
    let (n, bits) ← takeNumber 8 bits
    let (bytes, bits) ← takeBytes count bits
    return (n.toUInt8 :: bytes, bits)

/-- The bits from the next whole byte on, where `bits` ends with a whole byte. -/
def align (bits : Bits) : Bits :=
  bits.drop (bits.length % 8)

/-! ## Small facts -/

theorem length_le_of_takeNumber {count n : Nat} {bits rest : Bits}
    (h : takeNumber count bits = some (n, rest)) : rest.length ≤ bits.length := by
  fun_induction takeNumber count bits generalizing n with
  | case1 bits => simp_all
  | case2 => simp at h
  | case3 count b bits ih =>
    obtain ⟨⟨m, rest'⟩, found, same⟩ := Option.map_eq_some_iff.1 h
    simp only [Prod.mk.injEq] at same
    have := ih (found.trans (by rw [same.2]))
    simp only [List.length_cons]
    omega

theorem length_le_of_takeBytes {count : Nat} {bytes : List UInt8} {bits rest : Bits}
    (h : takeBytes count bits = some (bytes, rest)) : rest.length ≤ bits.length := by
  induction count generalizing bits bytes with
  | zero => simp_all [takeBytes]
  | succ count ih =>
    simp only [takeBytes, Option.bind_eq_bind, Option.bind_eq_some_iff, Prod.exists,
      Option.pure_def, Option.some.injEq, Prod.mk.injEq] at h
    obtain ⟨n, between, first, more, rest', next, -, rfl⟩ := h
    exact Nat.le_trans (ih next) (length_le_of_takeNumber first)

theorem length_align_le (bits : Bits) : bits.align.length ≤ bits.length := by
  simp only [align, List.length_drop]
  omega

end Bits

end WidgetSkin.Deflate
