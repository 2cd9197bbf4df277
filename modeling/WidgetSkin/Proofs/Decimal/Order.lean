import WidgetSkin.Proofs.Decimal.Approximate

/-!
# The order of doubles

Positive doubles are ordered as their magnitudes, and magnitudes as the numbers that they stand
for.

## Main statements

* `IsPositive.le_iff`, `IsPositive.lt_iff` — the order of positive doubles.
* `Binary.value_le_value` — the order of their numbers.
* `Binary.roundHalfUp_le` — the nearest integer keeps upper bounds.
-/

namespace WidgetSkin.Decimal

open Float.Model (UnpackedFloat Format)

/-- A double that is at most another is below it or equal to it. -/
theorem le_iff_lt_or_beq (x y : Float) : x ≤ y ↔ x < y ∨ (x == y) = true := by
  rw [le_iff_unpack, lt_iff_unpack, beq_iff_unpack, UnpackedFloat.le, UnpackedFloat.lt,
    UnpackedFloat.beq]
  cases x.toModel.unpack.compare y.toModel.unpack with
  | none => simp
  | some ordering => cases ordering <;> simp

namespace Binary

variable {b c : Binary}

theorem compare_toMagnitude (hb : b.Canonical) (hc : c.Canonical) :
    compare b.toMagnitude c.toMagnitude =
      (compare b.exponent c.exponent).then (compare b.mantissa c.mantissa) := by
  obtain ⟨hleast, htop, hbottom⟩ := hb
  obtain ⟨hleast', htop', hbottom'⟩ := hc
  simp only [toMagnitude, leastExponent, leadingBit] at *
  rcases lt_trichotomy b.exponent c.exponent with h | h | h
  · rw [Int.compare_eq_lt.2 h, Nat.compare_eq_lt.2 (by omega)]
    rfl
  · rw [Int.compare_eq_eq.2 h, h]
    rcases lt_trichotomy b.mantissa c.mantissa with h' | h' | h'
    · rw [Nat.compare_eq_lt.2 h', Nat.compare_eq_lt.2 (by omega)]
      rfl
    · rw [Nat.compare_eq_eq.2 h', Nat.compare_eq_eq.2 (by omega)]
      rfl
    · rw [Nat.compare_eq_gt.2 h', Nat.compare_eq_gt.2 (by omega)]
      rfl
  · rw [Int.compare_eq_gt.2 h, Nat.compare_eq_gt.2 (by omega)]
    rfl

/-- A greater magnitude stands for a greater number. -/
theorem value_le_value (hb : b.Canonical) (hc : c.Canonical)
    (h : b.toMagnitude ≤ c.toMagnitude) : b.value ≤ c.value := by
  have htop : (b.mantissa : ℚ) ≤ 2 ^ 53 := by exact_mod_cast hb.lt_top.le
  rcases lt_trichotomy b.exponent c.exponent with hlt | heq | hgt
  · have hbottom : leadingBit ≤ c.mantissa :=
      hc.le_bottom.resolve_left (hb.least_le.trans_lt hlt).ne'
    calc b.value ≤ 2 ^ 53 * 2 ^ b.exponent := by rw [value]; gcongr
      _ = 2 ^ 52 * 2 ^ (b.exponent + 1) := by rw [zpow_add_one₀ two_ne_zero]; ring
      _ ≤ c.mantissa * 2 ^ c.exponent := by
        gcongr
        · exact_mod_cast hbottom
        · exact one_le_two
        · omega
  · have hmantissa : b.mantissa ≤ c.mantissa := by
      simp only [toMagnitude, heq] at h
      omega
    rw [value, value, heq]
    gcongr
  · obtain ⟨hleast, -, hbottom⟩ := hb
    obtain ⟨hleast', htop', -⟩ := hc
    simp only [toMagnitude, leastExponent, leadingBit] at *
    omega

/-- The nearest integer of a number up to an integer is at most this integer. -/
theorem roundHalfUp_le {n : Nat} (h : b.value ≤ n) : b.roundHalfUp ≤ n := by
  simp only [roundHalfUp, Nat.pow_eq]
  split
  · next hexponent =>
    obtain ⟨e, he⟩ := Int.eq_ofNat_of_zero_le hexponent
    rw [value, he, zpow_natCast] at h
    rw [he, Int.toNat_natCast]
    exact_mod_cast h
  · next hexponent =>
    obtain ⟨e, he⟩ : ∃ e : Nat, b.exponent = -e := ⟨b.exponent.natAbs, by omega⟩
    rw [value, he, zpow_neg, zpow_natCast, ← div_eq_mul_inv, div_le_iff₀ (by positivity)] at h
    rw [he, Int.natAbs_neg, Int.natAbs_natCast]
    have hle : b.mantissa ≤ n * 2 ^ e := by exact_mod_cast h
    have hunit : 0 < 2 ^ e := by positivity
    rw [← Nat.lt_succ_iff, Nat.div_lt_iff_lt_mul (by omega), Nat.succ_mul]
    linarith

end Binary

/-! ## Positive doubles -/

namespace IsPositive

variable {x y : Float} {b c : Binary}

theorem compare_unpack (hx : IsPositive x b) (hy : IsPositive y c) :
    x.toModel.unpack.compare y.toModel.unpack = some (compare b.toMagnitude c.toMagnitude) := by
  rw [hx.unpack_eq, hy.unpack_eq, Binary.compare_toMagnitude hx.canonical hy.canonical,
    UnpackedFloat.compare]

theorem le_iff (hx : IsPositive x b) (hy : IsPositive y c) :
    x ≤ y ↔ b.toMagnitude ≤ c.toMagnitude := by
  rw [le_iff_unpack, UnpackedFloat.le, hx.compare_unpack hy, Option.any_some, Nat.isLE_compare]

theorem lt_iff (hx : IsPositive x b) (hy : IsPositive y c) :
    x < y ↔ b.toMagnitude < c.toMagnitude := by
  rw [lt_iff_unpack, UnpackedFloat.lt, hx.compare_unpack hy, beq_iff_eq,
    Option.some_inj, Nat.compare_eq_lt]

/-- What is at least a positive double is above zero. -/
theorem not_le_zero_of_le (hx : IsPositive x b) (h : x ≤ y) : ¬ y ≤ 0 := by
  rw [le_iff_unpack, unpack_zero]
  rw [le_iff_unpack, hx.unpack_eq] at h
  cases hy : y.toModel.unpack with
  | zero | notANumber => simp [hy, UnpackedFloat.le, UnpackedFloat.compare] at h
  | infinity sign | finite sign =>
    cases sign <;> simp [hy, UnpackedFloat.le, UnpackedFloat.compare] at h ⊢

end IsPositive

section Magnitudes

variable {m n : Nat}

theorem ofMagnitude_le_iff (hm : m ≠ 0) (hm' : m < infiniteMagnitude) (hn : n ≠ 0)
    (hn' : n < infiniteMagnitude) : ofMagnitude false m ≤ ofMagnitude false n ↔ m ≤ n := by
  rw [(isPositive_of_ne_zero hm hm').le_iff (isPositive_of_ne_zero hn hn'),
    Binary.toMagnitude_ofMagnitude, Binary.toMagnitude_ofMagnitude]

theorem ofMagnitude_lt_iff (hm : m ≠ 0) (hm' : m < infiniteMagnitude) (hn : n ≠ 0)
    (hn' : n < infiniteMagnitude) : ofMagnitude false m < ofMagnitude false n ↔ m < n := by
  rw [(isPositive_of_ne_zero hm hm').lt_iff (isPositive_of_ne_zero hn hn'),
    Binary.toMagnitude_ofMagnitude, Binary.toMagnitude_ofMagnitude]

end Magnitudes

end WidgetSkin.Decimal
