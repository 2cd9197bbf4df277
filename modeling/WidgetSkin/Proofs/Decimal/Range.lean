import WidgetSkin.Proofs.Decimal.Fewest
import WidgetSkin.Proofs.Decimal.Order

/-!
# Numerals within the range of doubles

A numeral that is read in double arithmetic may be refused although it stands for a number up to
the greatest double: its coefficient is rounded, then the power of ten, and then their product.
With up to eighteen digits that does not happen, whatever the power of ten: the greatest
coefficient that leaves the number in range is read with a finite product, and the product of a
smaller one is smaller. The numerals that doubles are saved with are that short.

## Main statements

* `Scaled.toFloat?_ne_none`, `Numeral.approximate?_ne_none` — short numbers within range are read.
* `Style.approximate?_numeral_ne_none` — a number is read from the numeral of every finite double.
-/

namespace WidgetSkin.Decimal

/-! ## Products -/

section Products

variable {x y x' y' : Float} {b c b' c' : Binary}

/-- A product is finite if that of greater doubles is. -/
theorem IsPositive.isFinite_mul_of_le (hx : IsPositive x b) (hy : IsPositive y c)
    (hx' : IsPositive x' b') (hy' : IsPositive y' c') (hb : b.value ≤ b'.value)
    (hc : c.value ≤ c'.value) (hfinite : (x' * y').isFinite = true) :
    (x * y).isFinite = true := by
  have hpos := Binary.value_pos hy.pos
  obtain ⟨num, den, hnum, hden, hproduct⟩ :=
    exists_fraction (mul_pos (Binary.value_pos hx.pos) hpos)
  obtain ⟨num', den', hnum', hden', hproduct'⟩ :=
    exists_fraction (mul_pos (Binary.value_pos hx'.pos) (Binary.value_pos hy'.pos))
  rw [hx'.mul_eq hy' hnum' hden' hproduct'] at hfinite
  rw [hx.mul_eq hy hnum hden hproduct]
  refine isFinite_ofMagnitude false (lt_of_le_of_lt ?_ (nearestMagnitude_lt_of_isFinite hfinite))
  refine nearestMagnitude_mono hnum hden hden' ?_
  rw [hproduct, hproduct']
  have hpos' := Binary.value_pos hx'.pos
  gcongr

end Products

/-! ## Short numbers -/

namespace Scaled

variable {n k : Nat}

theorem value_natCast (n k : Nat) : value ⟨n, k⟩ = (n * 10 ^ k : Nat) := by
  rw [value, zpow_natCast]
  push_cast
  rfl

/-- A greater whole number is rounded to a greater double. -/
theorem value_nearestMagnitude_le {m : Nat} (hpos : 0 < n) (hm : m ≤ greatestWhole) (h : n ≤ m) :
    (Binary.ofMagnitude (nearestMagnitude n 1)).value ≤
      (Binary.ofMagnitude (nearestMagnitude m 1)).value := by
  refine Binary.value_le_value (isPositive_whole hpos (h.trans hm)).canonical
    (isPositive_whole (hpos.trans_le h) hm).canonical ?_
  rw [Binary.toMagnitude_ofMagnitude, Binary.toMagnitude_ofMagnitude]
  refine nearestMagnitude_mono hpos one_pos one_pos ?_
  gcongr

/-- The greatest coefficient of eighteen digits that leaves a number within range. -/
def topDigits (k : Nat) : Nat :=
  min (10 ^ 18 - 1) (greatestWhole / 10 ^ k)

theorem isFinite_topDigits : ∀ k ≤ greatestPower, 290 ≤ k →
    (ofMagnitude false (nearestMagnitude (topDigits k) 1) * powerOfTen k).isFinite = true := by
  decide +kernel

theorem le_topDigits (hn : n < 10 ^ 18) (h : n * 10 ^ k ≤ greatestWhole) :
    n ≤ topDigits (max k 290) := by
  refine le_min (by omega) ((Nat.le_div_iff_mul_le (by positivity)).2 ?_)
  by_cases hk : 290 ≤ k
  · rwa [max_eq_left hk]
  · exact mul_ten_pow_le_greatestWhole hn.le (by simp only [greatestPower]; omega)

theorem isFinite_mul_powerOfTen (hpos : 0 < n) (hn : n < 10 ^ 18) (hk : k ≤ greatestPower)
    (h : n * 10 ^ k ≤ greatestWhole) :
    (ofMagnitude false (nearestMagnitude n 1) * powerOfTen k).isFinite = true := by
  -- below the power 290 the greatest coefficient has eighteen digits all the same
  have htop := le_topDigits hn h
  have hk' : max k 290 ≤ greatestPower := max_le hk (by decide)
  have hrange : topDigits (max k 290) ≤ greatestWhole :=
    (min_le_left _ _).trans ((Nat.sub_le _ _).trans (ten_pow_le_greatestWhole_iff.2 (by decide)))
  have hpower : 10 ^ max k 290 ≤ greatestWhole := ten_pow_le_greatestWhole_iff.2 hk'
  refine (isPositive_whole hpos (htop.trans hrange)).isFinite_mul_of_le (isPositive_powerOfTen hk)
    (isPositive_whole (hpos.trans_le htop) hrange) (isPositive_powerOfTen hk')
    (value_nearestMagnitude_le hpos hrange htop) ?_
    (isFinite_topDigits _ hk' (le_max_right _ _))
  exact value_nearestMagnitude_le (by positivity) hpower
    (Nat.pow_le_pow_right (by decide) (le_max_left _ _))

theorem multiply?_ne_none (hn : n < 10 ^ 18) (h : n * 10 ^ k ≤ greatestWhole) :
    multiply? (ofMagnitude false (nearestMagnitude n 1)) k ≠ none := by
  rcases Nat.eq_zero_or_pos n with rfl | hpos
  · rw [nearestMagnitude, if_pos rfl]
    by_cases hk : k ≤ greatestPower
    · obtain ⟨p, hp, -⟩ := one_le_powerOfTen hk
      simp only [multiply?, if_pos hk, hp.zero_mul_eq]
      decide
    · simp only [multiply?, if_neg hk]
      decide
  · have hk : k ≤ greatestPower :=
      ten_pow_le_greatestWhole_iff.1 ((Nat.le_mul_of_pos_left _ hpos).trans h)
    simp only [multiply?, if_pos hk, isFinite_mul_powerOfTen hpos hn hk h]
    exact Option.some_ne_none _

/-- A number of up to eighteen digits within range is read. -/
theorem toFloat?_ne_none {s : Scaled} (hdigits : s.digits < 10 ^ 18)
    (hvalue : s.value ≤ greatest) : s.toFloat? ≠ none := by
  obtain ⟨n, e⟩ := s
  simp only [toFloat?]
  split
  · next h =>
    obtain ⟨k, rfl⟩ := Int.eq_ofNat_of_zero_le h
    rw [value_natCast, ← cast_greatestWhole, Nat.cast_le] at hvalue
    exact multiply?_ne_none hdigits hvalue
  · exact Option.some_ne_none _

end Scaled

/-- A numeral of up to eighteen digits within range is read. -/
theorem Numeral.approximate?_ne_none {n : Numeral} (hcoefficient : n.coefficient < 10 ^ 18)
    (hvalue : n.value ≤ greatest) : n.approximate? ≠ none := by
  rw [approximate?, Scaled.ofNumeral_eq (hcoefficient.trans (by decide)), Ne,
    Option.map_eq_none_iff]
  exact Scaled.toFloat?_ne_none hcoefficient hvalue

/-! ## Saved doubles -/

namespace Style

variable {x : Float}

/-- Without an exponent a number is saved with up to sixteen digits in front of the point. -/
theorem coefficient_numeralOf_json_lt (negative : Bool) {s : Scaled} (h : s.digits < 10 ^ 18) :
    (json.numeralOf negative s).coefficient < 10 ^ 18 := by
  simp only [numeralOf]
  split
  · next hpositional =>
    simp only [positionalNumeral]
    split
    · next hexponent =>
      obtain ⟨k, hk⟩ := Int.eq_ofNat_of_zero_le hexponent
      have hcount : digitCount s.digits + k ≤ 16 := by
        simp only [json, hk, Bool.and_eq_true, decide_eq_true_eq] at hpositional
        omega
      have hdigits : s.digits < 10 ^ digitCount s.digits :=
        (Nat.length_toDigits_le_iff (by decide) Nat.length_toDigits_pos).1 le_rfl
      have hwhole : s.digits * 10 ^ k < 10 ^ 16 :=
        calc s.digits * 10 ^ k < 10 ^ digitCount s.digits * 10 ^ k := by gcongr
          _ = 10 ^ (digitCount s.digits + k) := (Nat.pow_add ..).symm
          _ ≤ 10 ^ 16 := Nat.pow_le_pow_right (by decide) hcount
      -- one place is written behind the point
      have hplace (m : Nat) : ofDigits m (lowDigits 1 0) = 10 * m := by
        simp [lowDigits, ofDigits]
      simp only [Numeral.coefficient, json, hk, if_true, Int.toNat_natCast, Nat.pow_eq, hplace]
      omega
    · exact (ofDigits_lowDigits _ s.digits).trans_lt h
  · exact (ofDigits_lowDigits _ s.digits).trans_lt h

/-- What is nearest to a double below the greatest one is within range. -/
theorem le_greatest_of_near {b : Binary} (hb : b.Canonical)
    (hlt : b.toMagnitude + 1 < infiniteMagnitude) {v : ℚ} (h : b.Near v) : v ≤ greatest := by
  have hexponent := Binary.exponent_le_of_finite hb (by omega)
  have hpow : (0 : ℚ) < 2 ^ b.exponent := zpow_pos two_pos _
  have hhigh : v ≤ (b.mantissa + 1 / 2) * 2 ^ b.exponent := (div_le_iff₀ hpow).1 h.high
  refine hhigh.trans ?_
  rcases hexponent.eq_or_lt with heq | hsmall
  · have hmantissa : b.mantissa + 1 < 2 ^ 53 := by
      simp only [Binary.toMagnitude, infiniteMagnitude, heq, Binary.leastExponent,
        leadingBit] at hlt
      omega
    have hmantissa' : (b.mantissa : ℚ) + 1 + 1 ≤ 2 ^ 53 := by exact_mod_cast hmantissa
    rw [greatest, heq]
    gcongr
    linarith
  · have hmantissa : (b.mantissa : ℚ) + 1 ≤ 2 ^ 53 := by exact_mod_cast hb.lt_top
    calc (b.mantissa + 1 / 2) * 2 ^ b.exponent ≤ (2 : ℚ) ^ (53 : ℤ) * 2 ^ (970 : ℤ) := by
          gcongr
          · have : (2 : ℚ) ^ (53 : ℤ) = 2 ^ 53 := rfl
            linarith
          · exact one_le_two
          · omega
      _ = 2 ^ (1023 : ℤ) := (zpow_add₀ two_ne_zero _ _).symm
      _ ≤ greatest := two_zpow_le_greatest le_rfl

/-- The greatest double lies above its shortest decimal. -/
theorem value_shortest_greatest_le :
    (shortest .even (.ofMagnitude (infiniteMagnitude - 1))).value ≤ greatest := by
  obtain ⟨hshortest, hle⟩ : shortest .even (.ofMagnitude (infiniteMagnitude - 1)) =
        ⟨17976931348623157, (292 : Nat)⟩ ∧ 17976931348623157 * 10 ^ 292 ≤ greatestWhole := by
    decide +kernel
  rw [hshortest, Scaled.value_natCast, ← cast_greatestWhole, Nat.cast_le]
  exact hle

theorem value_numeral_json_le (hfinite : x.isFinite = true) :
    (json.numeral x).value ≤ greatest := by
  have hlt := (isFinite_iff_magnitude x).1 hfinite
  simp only [numeral]
  split
  · rw [value_positionalNumeral, Scaled.value, Nat.cast_zero, zero_mul, ← cast_greatestWhole]
    exact Nat.cast_nonneg _
  · next hzero =>
    rw [value_numeralOf]
    by_cases hgreatest : magnitude x = infiniteMagnitude - 1
    · rw [hgreatest]
      exact value_shortest_greatest_le
    · refine le_greatest_of_near (Binary.canonical_ofMagnitude _) ?_
        (shortest_near json.tie (Binary.mantissa_ofMagnitude_pos hzero))
      rw [Binary.toMagnitude_ofMagnitude]
      omega

/-- A number is read from the numeral that a finite double is saved with. -/
theorem approximate?_numeral_ne_none (hfinite : x.isFinite = true) :
    (json.numeral x).approximate? ≠ none := by
  refine Numeral.approximate?_ne_none ?_ (value_numeral_json_le hfinite)
  simp only [numeral]
  split
  · change 0 < 10 ^ 18
    decide
  · next hzero =>
    refine coefficient_numeralOf_json_lt _ (shortest_digits_lt _ (Binary.canonical_ofMagnitude _)
      (Binary.mantissa_ofMagnitude_pos hzero) ?_)
    rw [Binary.toMagnitude_ofMagnitude]
    exact (isFinite_iff_magnitude x).1 hfinite

end Style

end WidgetSkin.Decimal
