import WidgetSkin.Proofs.Decimal.Rounding

/-!
# Products and quotients of doubles

The product and the quotient of two positive doubles are the doubles nearest to the exact ones.

## Main definitions

* `Binary.value` — the number that a mantissa and an exponent stand for.
* `IsPositive` — a positive finite double with its mantissa and exponent.

## Main statements

* `IsPositive.mul_eq`, `IsPositive.div_eq` — the nearest doubles.
-/

namespace WidgetSkin.Decimal

open Float.Model (Format totalExponent UnpackedFloat)
open Float.Model.UnpackedFloat

namespace Binary

/-- The number that a mantissa and an exponent stand for. -/
def value (b : Binary) : ℚ :=
  b.mantissa * 2 ^ b.exponent

theorem value_pos {b : Binary} (h : 0 < b.mantissa) : 0 < b.value := by
  have hm : (0 : ℚ) < b.mantissa := by exact_mod_cast h
  exact mul_pos hm (zpow_pos two_pos _)

end Binary

/-! ## Bits of a magnitude -/

theorem eq_ofMagnitude {f : UnpackedFloat} (negative : Bool) {m : Nat}
    (h : (pack Format.binary64 f).toNat = (if negative then signBit else 0) + m) :
    (⟨.pack f⟩ : Float) = ofMagnitude negative m := by
  have hbits : (⟨.pack f⟩ : Float).toBits = .ofBitVec (pack Format.binary64 f) := rfl
  rw [← ofBits_toBits ⟨.pack f⟩, hbits, ofMagnitude, ← h]
  congr 1
  rw [← UInt64.toNat_inj]
  simp

theorem unpack_eq_finite {bits : BitVec Format.binary64.numBits} {b : Binary} (hb : b.Canonical)
    (hpos : 0 < b.mantissa) (hfinite : b.toMagnitude < infiniteMagnitude)
    (h : bits.toNat = b.toMagnitude) :
    unpack Format.binary64 bits = .finite .positive b.mantissa b.exponent hpos := by
  obtain ⟨m, e⟩ := b
  obtain ⟨hleast, htop, hbottom⟩ := hb
  simp only [Binary.toMagnitude, infiniteMagnitude, Binary.leastExponent, leadingBit] at *
  have hsign : Sign.ofBitVec (@unpackSign Format.binary64 bits) = .positive := by
    have hzero : @unpackSign Format.binary64 bits = 0#1 := by
      rw [← BitVec.toNat_inj]
      simp [unpackSign, BitVec.extractLsb_toNat, Nat.shiftRight_eq_div_pow]
      omega
    rw [hzero]
    rfl
  have hexponent : (@unpackExponent Format.binary64 bits).toNat =
      ((e + 1074).toNat * 4503599627370496 + m) / 4503599627370496 := by
    simp [unpackExponent, BitVec.extractLsb_toNat, Nat.shiftRight_eq_div_pow, h]
    omega
  have hmantissa : (@unpackMantissa Format.binary64 bits).toNat =
      ((e + 1074).toNat * 4503599627370496 + m) % 4503599627370496 := by
    simp [unpackMantissa, BitVec.extractLsb_toNat, h]
  have hfull : @unpackExponent Format.binary64 bits ≠ -1#11 := by
    rw [Ne, ← BitVec.toNat_inj, hexponent]
    simp
    omega
  simp only [unpack, hsign]
  rw [if_neg hfull]
  by_cases hnormal : 4503599627370496 ≤ m
  · have hzero : @unpackExponent Format.binary64 bits ≠ 0#11 := by
      rw [Ne, ← BitVec.toNat_inj, hexponent, BitVec.toNat_ofNat, Nat.zero_mod]
      omega
    have happend : (1#1 ++ @unpackMantissa Format.binary64 bits).toNat =
        4503599627370496 + (@unpackMantissa Format.binary64 bits).toNat := by
      rw [BitVec.toNat_append, ← Nat.shiftLeft_add_eq_or_of_lt (BitVec.isLt _)]
      rfl
    rw [if_neg hzero]
    simp only [finite.injEq, happend, hmantissa, hexponent]
    simp [Format.exponentBias]
    omega
  · have hzero : @unpackExponent Format.binary64 bits = 0#11 := by
      rw [← BitVec.toNat_inj, hexponent, BitVec.toNat_ofNat, Nat.zero_mod]
      omega
    have hrest : @unpackMantissa Format.binary64 bits ≠ 0#52 := by
      have hm : 0 < m := hpos
      rw [Ne, ← BitVec.toNat_inj, hmantissa, BitVec.toNat_ofNat, Nat.zero_mod]
      omega
    rw [if_pos hzero, dif_neg hrest]
    simp only [finite.injEq, hmantissa, hexponent]
    simp [Format.exponentBias]
    omega

/-! ## Quotients of mantissas -/

section Quotient

variable {m n : Nat}

/-- A quotient is computed with the bits of a double, or with the least exponent. -/
theorem divCore_bits (hm : 0 < m) (hn : 0 < n) (e f : Int) :
    52 ≤ (divCore Format.binary64 m e n f).1.log2 ∨
      (divCore Format.binary64 m e n f).2.1 ≤ Binary.leastExponent := by
  have hmantissa : (Format.binary64.mantissaBits : Int) = 53 := rfl
  have hleast : Format.binary64.minExponent = Binary.leastExponent := rfl
  simp only [divCore, Format.targetExponent, totalExponent, hmantissa, hleast]
  generalize htarget : min (e - f) (max (m.log2 + 1 + e - (n.log2 + 1 + f) - 53)
    Binary.leastExponent) = target
  -- above the least exponent the shift makes the quotient long enough
  refine or_iff_not_imp_right.2 fun habove => ?_
  generalize hk : (e - f - target).toNat = k
  have hquotient : 2 ^ 52 ≤ m <<< k / n := by
    rw [Nat.le_div_iff_mul_le hn, Nat.shiftLeft_eq]
    calc 2 ^ 52 * n ≤ 2 ^ 52 * 2 ^ (n.log2 + 1) := Nat.mul_le_mul_left _ Nat.lt_log2_self.le
      _ = 2 ^ (52 + (n.log2 + 1)) := (Nat.pow_add ..).symm
      _ ≤ 2 ^ (m.log2 + k) := Nat.pow_le_pow_right two_pos (by omega)
      _ = 2 ^ m.log2 * 2 ^ k := Nat.pow_add ..
      _ ≤ m * 2 ^ k := Nat.mul_le_mul_right _ (Nat.log2_self_le hm.ne')
  exact (Nat.le_log2 (by omega)).2 hquotient

theorem represents_divCore (hn : 0 < n) (e f : Int) :
    Represents
      (.ofMantissaAndAccuracy (divCore Format.binary64 m e n f).1
        (divCore Format.binary64 m e n f).2.2)
      ((m : ℚ) * 2 ^ e / (n * 2 ^ f) / 2 ^ (divCore Format.binary64 m e n f).2.1) := by
  simp only [divCore]
  generalize Format.binary64.targetExponent (totalExponent m e - totalExponent n f) = target
  obtain ⟨k, hk⟩ := Int.le.dest (min_le_left (e - f) target)
  have hexponent : e = f + min (e - f) target + k := by omega
  have hscaled : ((m <<< k : Nat) : ℚ) / n =
      (m : ℚ) * 2 ^ e / (n * 2 ^ f) / 2 ^ min (e - f) target := by
    rw [hexponent, zpow_add₀ two_ne_zero, zpow_add₀ two_ne_zero, zpow_natCast, Nat.shiftLeft_eq,
      ← hexponent]
    push_cast
    field_simp
  rw [← hscaled, show (e - f - min (e - f) target).toNat = k by omega]
  exact .ofFraction hn

end Quotient

/-! ## Finite doubles -/

/-- The double is finite and positive, with a given mantissa and exponent. -/
structure IsPositive (x : Float) (b : Binary) : Prop where
  canonical : b.Canonical
  pos : 0 < b.mantissa
  unpack_eq : x.toModel.unpack = .finite .positive b.mantissa b.exponent pos

theorem isPositive_ofMagnitude {b : Binary} (hb : b.Canonical) (hpos : 0 < b.mantissa)
    (hfinite : b.toMagnitude < infiniteMagnitude) :
    IsPositive (ofMagnitude false b.toMagnitude) b := by
  refine ⟨hb, hpos, ?_⟩
  have hbits : (pack Format.binary64 (.finite .positive b.mantissa b.exponent hpos)).toNat =
      b.toMagnitude := by
    rw [toNat_pack_finite .positive hb]
    simp [Sign.toBitVec]
    omega
  rw [← eq_ofMagnitude false (hbits.trans (by simp))]
  exact unpack_eq_finite hb hpos hfinite hbits

theorem isPositive_of_ne_zero {m : Nat} (h : m ≠ 0) (hfinite : m < infiniteMagnitude) :
    IsPositive (ofMagnitude false m) (.ofMagnitude m) := by
  rw [← Binary.toMagnitude_ofMagnitude m] at hfinite
  have := isPositive_ofMagnitude (Binary.canonical_ofMagnitude m)
    (Binary.mantissa_ofMagnitude_pos h) hfinite
  rwa [Binary.toMagnitude_ofMagnitude] at this

theorem toNat_pack_ofMagnitude (s : Sign) {m : Nat} (h : m ≠ 0) (hfinite : m < infiniteMagnitude) :
    (pack Format.binary64 (.finite s (Binary.ofMagnitude m).mantissa (Binary.ofMagnitude m).exponent
      (Binary.mantissa_ofMagnitude_pos h))).toNat = s.toBitVec.toNat * signBit + m := by
  rw [toNat_pack_finite s (Binary.canonical_ofMagnitude m), Binary.toMagnitude_ofMagnitude,
    min_eq_right hfinite.le]

theorem unpack_ofMagnitude_zero : (ofMagnitude false 0).toModel.unpack = .zero .positive := by
  with_unfolding_all rfl

theorem neg_ofMagnitude {m : Nat} (h : m < infiniteMagnitude) :
    -ofMagnitude false m = ofMagnitude true m := by
  change (⟨.pack (ofMagnitude false m).toModel.unpack.neg⟩ : Float) = _
  by_cases hzero : m = 0
  · rw [hzero, unpack_ofMagnitude_zero]
    exact eq_ofMagnitude true (by decide)
  · have hbits := toNat_pack_ofMagnitude .negative hzero h
    rw [(isPositive_of_ne_zero hzero h).unpack_eq]
    exact eq_ofMagnitude true (hbits.trans (by simp [Sign.toBitVec]))

theorem magnitude_ofMagnitude (negative : Bool) {m : Nat} (h : m < infiniteMagnitude) :
    magnitude (ofMagnitude negative m) = m := by
  obtain ⟨f, hbits⟩ : ∃ f, (pack Format.binary64 f).toNat =
      (if negative then signBit else 0) + m := by
    obtain ⟨s, hsign⟩ : ∃ s : Sign,
        s.toBitVec.toNat * signBit = if negative then signBit else 0 := by
      cases negative with
      | false => exact ⟨.positive, by simp [Sign.toBitVec]⟩
      | true => exact ⟨.negative, by simp [Sign.toBitVec]⟩
    rw [← hsign]
    by_cases hzero : m = 0
    · exact ⟨.zero s, by simp [pack, packedZero, toNat_packComponents, hzero]⟩
    · exact ⟨_, toNat_pack_ofMagnitude s hzero h⟩
  rw [← eq_ofMagnitude negative hbits]
  change (pack Format.binary64 f).toNat % signBit = m
  rw [hbits]
  simp only [infiniteMagnitude, leadingBit, signBit] at h ⊢
  split <;> omega

theorem isFinite_ofMagnitude (negative : Bool) {m : Nat} (h : m < infiniteMagnitude) :
    (ofMagnitude negative m).isFinite = true := by
  rwa [isFinite_iff_magnitude, magnitude_ofMagnitude negative h]

theorem pack_zero : (⟨.pack (.zero .positive)⟩ : Float) = ofMagnitude false 0 :=
  eq_ofMagnitude false (by decide)

/-! ## Products and quotients -/

namespace IsPositive

variable {x y : Float} {b c : Binary} {num den : Nat}

theorem mul_eq (hx : IsPositive x b) (hy : IsPositive y c) (hnum : 0 < num) (hden : 0 < den)
    (h : (num : ℚ) / den = b.value * c.value) :
    x * y = ofMagnitude false (nearestMagnitude num den) := by
  -- a factor with a full mantissa is enough; without any both exponents are the least one
  have hbits : 52 ≤ (b.mantissa * c.mantissa).log2 ∨
      b.exponent + c.exponent ≤ Binary.leastExponent := by
    rw [Nat.le_log2 (Nat.mul_pos hx.pos hy.pos).ne']
    have hleast : Binary.leastExponent ≤ 0 := by decide
    rcases hx.canonical.le_bottom with hb | hb
    · rcases hy.canonical.le_bottom with hc | hc
      · exact .inr (by omega)
      · exact .inl (hc.trans (Nat.le_mul_of_pos_left _ hx.pos))
    · exact .inl (hb.trans (Nat.le_mul_of_pos_right _ hy.pos))
  have hexact : (num : ℚ) / den / 2 ^ (b.exponent + c.exponent) =
      (b.mantissa * c.mantissa : Nat) := by
    rw [h, Binary.value, Binary.value, zpow_add₀ two_ne_zero]
    push_cast
    field_simp
  change (⟨.pack (mul Format.binary64 x.toModel.unpack y.toModel.unpack)⟩ : Float) = _
  rw [hx.unpack_eq, hy.unpack_eq]
  exact eq_ofMagnitude false (toNat_pack_roundWithAccuracy .positive hnum hden hbits
    (hexact ▸ .ofExact _))

theorem div_eq (hx : IsPositive x b) (hy : IsPositive y c) (hnum : 0 < num) (hden : 0 < den)
    (h : (num : ℚ) / den = b.value / c.value) :
    x / y = ofMagnitude false (nearestMagnitude num den) := by
  change (⟨.pack (div Format.binary64 x.toModel.unpack y.toModel.unpack)⟩ : Float) = _
  rw [hx.unpack_eq, hy.unpack_eq]
  exact eq_ofMagnitude false (toNat_pack_roundWithAccuracy .positive hnum hden
    (divCore_bits hx.pos hy.pos _ _) (h ▸ represents_divCore hy.pos _ _))

theorem zero_mul_eq (hy : IsPositive y c) : ofMagnitude false 0 * y = ofMagnitude false 0 := by
  change (⟨.pack (mul Format.binary64 (ofMagnitude false 0).toModel.unpack
    y.toModel.unpack)⟩ : Float) = _
  rw [unpack_ofMagnitude_zero, hy.unpack_eq]
  exact pack_zero

theorem zero_div_eq (hy : IsPositive y c) : ofMagnitude false 0 / y = ofMagnitude false 0 := by
  change (⟨.pack (div Format.binary64 (ofMagnitude false 0).toModel.unpack
    y.toModel.unpack)⟩ : Float) = _
  rw [unpack_ofMagnitude_zero, hy.unpack_eq]
  exact pack_zero

end IsPositive

end WidgetSkin.Decimal
