import Mathlib
import WidgetSkin.Decimal.Binary

/-!
# Doubles, zero and bits

A double that is a number is at least zero exactly if it is not below zero; zeros of both signs
count as zero. A double is the same as its sign and its magnitude, and the finite ones are those
below the infinite magnitude.

## Main statements

* `zero_le_iff_not_lt_zero` — the order against zero.
* `ofMagnitude_magnitude` — a double put together again from sign and magnitude.
* `isFinite_iff_magnitude` — the magnitudes of finite doubles.
* `beq_zero_iff` — the doubles that equal zero.
-/

namespace WidgetSkin.Decimal

open Float.Model (UnpackedFloat Format)

/-! ## Order -/

theorem le_iff_unpack (x y : Float) :
    x ≤ y ↔ x.toModel.unpack.le y.toModel.unpack = true := by
  change decide (x.toModel ≤ y.toModel) = true ↔ _
  rw [decide_eq_true_iff]
  rfl

theorem lt_iff_unpack (x y : Float) :
    x < y ↔ x.toModel.unpack.lt y.toModel.unpack = true := by
  change decide (x.toModel < y.toModel) = true ↔ _
  rw [decide_eq_true_iff]
  rfl

theorem beq_iff_unpack (x y : Float) :
    (x == y) = x.toModel.unpack.beq y.toModel.unpack := rfl

theorem unpack_zero : (0 : Float).toModel.unpack = .zero .positive := by
  with_unfolding_all rfl

/-- A finite double is at least zero or below zero. -/
theorem zero_le_iff_not_lt_zero {x : Float} (h : x.isFinite = true) : 0 ≤ x ↔ ¬ x < 0 := by
  rw [le_iff_unpack, lt_iff_unpack, unpack_zero]
  change x.toModel.unpack.isFinite = true at h
  cases hx : x.toModel.unpack with
  | infinity sign | notANumber => simp [hx, UnpackedFloat.isFinite] at h
  | zero sign => cases sign <;> decide
  | finite sign mantissa exponent _ =>
    cases sign <;> simp [UnpackedFloat.le, UnpackedFloat.lt, UnpackedFloat.compare]

/-! ## Bits -/

section Bits

open Float.Model.UnpackedFloat

/-- Sign, exponent and mantissa side by side are the bits they were taken from. -/
theorem packComponents_unpack (b : BitVec Format.binary64.numBits) :
    packComponents Format.binary64 (Sign.ofBitVec (unpackSign b)) (unpackExponent b)
      (unpackMantissa b) = b := by
  have hsign : (Sign.ofBitVec (unpackSign b)).toBitVec = unpackSign b := by
    generalize unpackSign b = sign
    revert sign
    decide
  rw [packComponents, hsign]
  ext i hi
  simp [unpackMantissa, unpackExponent, unpackSign]
  grind

theorem pack_subnormal (s : Sign) (m : BitVec 52) (h : 0 < m.toNat) :
    pack Format.binary64 (.finite s m.toNat (-1074) h) =
      packComponents Format.binary64 s 0#11 m := by
  have hlog : m.toNat.log2 < 52 := (Nat.log2_lt (Nat.ne_of_gt h)).2 m.isLt
  simp only [pack]
  rw [if_neg (by decide), if_neg (by simp [Format.mantissaBits]; omega)]
  simp

theorem pack_normal (s : Sign) {e : BitVec 11} (m : BitVec 52) (he : e ≠ -1#11)
    (h : 0 < (1#1 ++ m).toNat) :
    pack Format.binary64 (.finite s (1#1 ++ m).toNat (e.toNat - 1075) h) =
      packComponents Format.binary64 s e m := by
  have hm : (1#1 ++ m).toNat = 2 ^ 52 + m.toNat := by
    rw [BitVec.toNat_append, ← Nat.shiftLeft_add_eq_or_of_lt m.isLt]
    rfl
  have hlog : (1#1 ++ m).toNat.log2 = 52 := by
    rw [hm, Nat.log2_eq_iff (by omega)]
    omega
  have hlt : e.toNat < 2047 := by
    have hne : e.toNat ≠ 2047 := fun h => he (by rw [← BitVec.toNat_inj, h]; rfl)
    omega
  have hbiased : ((e.toNat : Int) - 1075 + (Format.binary64.exponentBias : Nat) +
      (52 : Nat)).toNat = e.toNat := by
    simp [Format.exponentBias]
    omega
  have hmantissa : BitVec.ofNat 52 (1#1 ++ m).toNat = m := by
    rw [← BitVec.toNat_inj, BitVec.toNat_ofNat, hm]
    omega
  simp only [pack, hbiased, hlog]
  rw [if_neg (by simp; omega), if_pos (by decide), hmantissa, BitVec.ofNat_toNat,
    BitVec.setWidth_eq]

/-- Bits of which all that are no number are spelled in one way come back from their parts. -/
theorem pack_unpack {b : BitVec Format.binary64.numBits} (h : Format.binary64.Valid b) :
    pack Format.binary64 (unpack Format.binary64 b) = b := by
  have hpieces := packComponents_unpack b
  simp only [unpack]
  by_cases hall : unpackExponent b = -1#11
  · rw [if_pos hall]
    by_cases hm : unpackMantissa b = 0#52
    · rw [if_pos hm]
      rw [hall, hm] at hpieces
      exact hpieces
    · rw [if_neg hm]
      exact (h.eq_packedNaN hall hm).symm
  · rw [if_neg hall]
    by_cases hzero : unpackExponent b = 0#11
    · rw [if_pos hzero]
      rw [hzero] at hpieces
      split
      · next hm =>
        rw [hm] at hpieces
        exact hpieces
      · rw [hzero]
        exact (pack_subnormal _ _ _).trans hpieces
    · rw [if_neg hzero]
      exact (pack_normal _ _ hall _).trans hpieces

theorem ofBits_toBits (x : Float) : Float.ofBits x.toBits = x := by
  obtain ⟨⟨bits, valid⟩⟩ := x
  simp only [Float.toBits, Float.ofBits, Float.Model.ofBits, Float.Model.pack, pack_unpack valid]

/-- A double is put together again from its sign and its magnitude. -/
theorem ofMagnitude_magnitude (x : Float) :
    ofMagnitude (isNegative x) (magnitude x) = x := by
  have hbits : (if isNegative x then signBit else 0) + magnitude x = x.toBits.toNat := by
    have hlt := x.toBits.toNat_lt
    have hsign : signBit = 2 ^ 63 := rfl
    rw [magnitude]
    by_cases h : signBit ≤ x.toBits.toNat
    · rw [if_pos (by simpa [isNegative] using h)]
      rw [hsign] at h ⊢
      omega
    · rw [if_neg (by simpa [isNegative] using h)]
      rw [hsign] at h ⊢
      omega
  rw [ofMagnitude, hbits, UInt64.ofNat_toNat, ofBits_toBits]

/-- A double is finite if its magnitude is below that of the infinities. -/
theorem isFinite_iff_magnitude (x : Float) :
    x.isFinite = true ↔ magnitude x < infiniteMagnitude := by
  have hfinite : x.isFinite = (unpack Format.binary64 x.toBits.toBitVec).isFinite := rfl
  have hexponent : (@unpackExponent Format.binary64 x.toBits.toBitVec).toNat =
      x.toBits.toNat / 2 ^ 52 % 2 ^ 11 := by
    simp [unpackExponent, BitVec.extractLsb_toNat, Nat.shiftRight_eq_div_pow]
  have hall : @unpackExponent Format.binary64 x.toBits.toBitVec = -1#11 ↔
      ¬ magnitude x < infiniteMagnitude := by
    rw [← BitVec.toNat_inj, hexponent]
    simp only [magnitude, infiniteMagnitude, signBit, leadingBit, BitVec.neg_one_eq_allOnes,
      BitVec.toNat_allOnes]
    omega
  rw [hfinite]
  simp only [unpack]
  split
  · next h => split <;> simpa [isFinite] using hall.1 h
  · next h =>
    have hlt : magnitude x < infiniteMagnitude := Decidable.not_not.1 (mt hall.2 h)
    split <;> (try split) <;> simp [isFinite, hlt]

/-- The doubles that equal zero are those without a magnitude. -/
theorem beq_zero_iff (x : Float) : (x == 0) = true ↔ magnitude x = 0 := by
  have hunpack : x.toModel.unpack = unpack Format.binary64 x.toBits.toBitVec := rfl
  have hexponent : (@unpackExponent Format.binary64 x.toBits.toBitVec).toNat =
      x.toBits.toNat / 2 ^ 52 % 2 ^ 11 := by
    simp [unpackExponent, BitVec.extractLsb_toNat, Nat.shiftRight_eq_div_pow]
  have hmantissa : (@unpackMantissa Format.binary64 x.toBits.toBitVec).toNat =
      x.toBits.toNat % 2 ^ 52 := by
    simp [unpackMantissa, BitVec.extractLsb_toNat]
  have hzero : magnitude x = 0 ↔ @unpackExponent Format.binary64 x.toBits.toBitVec = 0#11 ∧
      @unpackMantissa Format.binary64 x.toBits.toBitVec = 0#52 := by
    rw [← BitVec.toNat_inj, ← BitVec.toNat_inj, hexponent, hmantissa]
    simp only [magnitude, signBit, BitVec.toNat_zero]
    omega
  rw [beq_iff_unpack, unpack_zero, hunpack, hzero]
  simp only [unpack]
  generalize Sign.ofBitVec (@unpackSign Format.binary64 x.toBits.toBitVec) = sign
  split
  · next hall =>
    rw [hall]
    split <;> cases sign <;> simp [UnpackedFloat.beq, UnpackedFloat.compare]
  · split
    · next hleast =>
      rw [hleast]
      split
      · next hm => simp [hm, UnpackedFloat.beq, UnpackedFloat.compare]
      · next hm => cases sign <;> simp [hm, UnpackedFloat.beq, UnpackedFloat.compare]
    · next hleast => cases sign <;> simp [hleast, UnpackedFloat.beq, UnpackedFloat.compare]

end Bits

end WidgetSkin.Decimal
