import WidgetSkin.Proofs.Decimal.Approximate

/-!
# Whole numbers as doubles

A whole number of up to 53 bits is a double, and a positive double divided by such a number is
finite again.

## Main statements

* `isPositive_toFloat` — a whole number as a double.
* `isUnsigned_of_pos` — a finite double above zero has no sign.
* `isFinite_div_toFloat` — quotients by whole numbers.
-/

namespace WidgetSkin.Decimal

open Float.Model (Format totalExponent UnpackedFloat)
open Float.Model.UnpackedFloat

/-! ## Whole numbers -/

/-- A whole number is rounded to the nearest double. -/
theorem toNat_pack_round {n : Nat} (hpos : 0 < n) :
    (pack Format.binary64 (UnpackedFloat.round Format.binary64 .positive n 0)).toNat =
      nearestMagnitude n 1 := by
  have htarget := targetExponent_totalExponent n 0
  have hleast : Binary.leastExponent = -1074 := rfl
  -- the number is shifted to the left until it has the bits of a double
  generalize hk : (0 - Format.binary64.targetExponent (totalExponent n 0)).toNat = k
  have hbits : 2 ^ 52 ≤ n <<< k :=
    calc 2 ^ 52 ≤ 2 ^ (n.log2 + k) := Nat.pow_le_pow_right two_pos (by omega)
      _ = 2 ^ n.log2 * 2 ^ k := Nat.pow_add ..
      _ ≤ n * 2 ^ k := Nat.mul_le_mul_right _ (Nat.log2_self_le hpos.ne')
      _ = n <<< k := (Nat.shiftLeft_eq ..).symm
  have hexact : (n : ℚ) / (1 : Nat) / 2 ^ (0 - (k : ℤ)) = (n <<< k : Nat) := by
    rw [zero_sub, zpow_neg, zpow_natCast, Nat.shiftLeft_eq]
    simp
  have hrepresents : Represents (.ofMantissaAndAccuracy (n <<< k) .exact)
      ((n : ℚ) / (1 : Nat) / 2 ^ (0 - (k : ℤ))) := by
    rw [hexact]
    exact .ofExact _
  have hrounded := toNat_pack_roundWithAccuracy .positive hpos one_pos
    (.inl ((Nat.le_log2 (by omega)).2 hbits)) hrepresents
  simp only [UnpackedFloat.round, decreaseExponent]
  rw [hk, hrounded]
  simp [Sign.toBitVec]

theorem toFloat_uint64 {n : UInt64} (hpos : 0 < n.toNat) :
    n.toFloat = ofMagnitude false (nearestMagnitude n.toNat 1) := by
  have hcompare : compare (n.toNat : Int) 0 = .gt := Int.compare_eq_gt.2 (by omega)
  have hround : UnpackedFloat.ofUInt64 Format.binary64 n =
      UnpackedFloat.round Format.binary64 .positive n.toNat 0 := by
    simp only [UnpackedFloat.ofUInt64, UnpackedFloat.ofNat, UnpackedFloat.ofInt,
      UnpackedFloat.normalize, hcompare, Int.toNat_natCast]
  change (⟨.pack (UnpackedFloat.ofUInt64 Format.binary64 n)⟩ : Float) = _
  rw [hround]
  refine eq_ofMagnitude false ((toNat_pack_round hpos).trans ?_)
  simp

/-- A whole number of up to 53 bits is a double. -/
theorem isPositive_toFloat {n : Nat} (hpos : 0 < n) (hn : n < 2 ^ 53) :
    ∃ b, IsPositive n.toFloat b ∧ b.value = n := by
  have hword : n.toUInt64.toNat = n := UInt64.toNat_ofNat_of_lt' (hn.trans (by decide))
  obtain ⟨b, hb, hvalue⟩ := Scaled.isPositive_nearestMagnitude hpos hn
  obtain ⟨p, hp, hone⟩ := Scaled.powerOfTen_exact (k := 0) (by decide)
  have hfloat : n.toFloat = n.toUInt64.toFloat * Scaled.powerOfTen 0 := by
    change Float.ofScientific n false 0 = _
    rw [Float.ofScientific, dif_pos ⟨hn, by decide⟩]
    have hpower : Float.exactlyRepresentablePowersOfTen[0] = Scaled.powerOfTen 0 := by
      decide +kernel
    rw [← hpower]
    rfl
  have hproduct : (n : ℚ) / (1 : Nat) = b.value * p.value := by
    rw [hvalue, hone]
    simp
  refine ⟨b, ?_, hvalue⟩
  rw [hfloat, toFloat_uint64 (by rwa [hword]), hword, hb.mul_eq hp hpos one_pos hproduct]
  exact hb

/-! ## Finite doubles -/

section Finite

variable {x : Float}

theorem IsPositive.isFinite {b : Binary} (h : IsPositive x b) : x.isFinite = true := by
  change x.toModel.unpack.isFinite = true
  rw [h.unpack_eq]
  rfl

theorem IsPositive.zero_lt {b : Binary} (h : IsPositive x b) : 0 < x := by
  rw [lt_iff_unpack, unpack_zero, h.unpack_eq]
  rfl

/-- A finite double with a sign is at most zero. -/
theorem le_zero_of_isNegative (hfinite : x.isFinite = true) (h : isNegative x = true) : x ≤ 0 := by
  have hunpack : x.toModel.unpack = unpack Format.binary64 x.toBits.toBitVec := rfl
  have hsign : Sign.ofBitVec (@unpackSign Format.binary64 x.toBits.toBitVec) = .negative := by
    have hone : @unpackSign Format.binary64 x.toBits.toBitVec = 1#1 := by
      have hlt := x.toBits.toNat_lt
      have hbit : signBit ≤ x.toBits.toNat := by simpa [isNegative] using h
      rw [← BitVec.toNat_inj]
      simp [unpackSign, BitVec.extractLsb_toNat, Nat.shiftRight_eq_div_pow]
      simp only [signBit] at hbit
      omega
    rw [hone]
    rfl
  change x.toModel.unpack.isFinite = true at hfinite
  rw [le_iff_unpack, unpack_zero, hunpack]
  rw [hunpack] at hfinite
  simp only [unpack, hsign] at hfinite ⊢
  split at hfinite
  · split at hfinite <;> simp [isFinite] at hfinite
  · next hexponent =>
    rw [if_neg hexponent]
    split
    · split <;> rfl
    · rfl

/-- A finite double above zero has no sign. -/
theorem isUnsigned_of_pos (hfinite : x.isFinite = true) (hpos : ¬ x ≤ 0) :
    Scaled.IsUnsigned x := by
  refine ⟨magnitude x, (isFinite_iff_magnitude x).1 hfinite, ?_⟩
  have hsign : isNegative x = false :=
    Bool.eq_false_iff.2 fun h => hpos (le_zero_of_isNegative hfinite h)
  rw [← hsign, ofMagnitude_magnitude]

theorem isFinite_div_toFloat {n : Nat} (hfinite : x.isFinite = true) (hpos : ¬ x ≤ 0)
    (hn : 0 < n) (hlt : n < 2 ^ 53) : (x / n.toFloat).isFinite = true := by
  obtain ⟨b, hb, hvalue⟩ := isPositive_toFloat hn hlt
  have hone : 1 ≤ b.value := by
    rw [hvalue]
    exact_mod_cast hn
  obtain ⟨m, hm, hquotient⟩ :=
    Scaled.isUnsigned_div_of_one_le (isUnsigned_of_pos hfinite hpos) hb hone
  rw [hquotient]
  exact isFinite_ofMagnitude false hm

end Finite

end WidgetSkin.Decimal
