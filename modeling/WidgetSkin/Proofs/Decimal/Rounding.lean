import WidgetSkin.Proofs.Decimal.Double
import WidgetSkin.Proofs.Decimal.Nearest

/-!
# Rounding in double arithmetic

The outcome of an operation is computed as a mantissa with a round bit, which is the bit behind
it, and a sticky bit, which says whether anything comes behind the round bit. That is enough to
round to the nearest double.

## Main definitions

* `Represents` — the numbers that a mantissa with its two bits stands for.

## Main statements

* `toNat_pack_finite` — the bits of a mantissa and an exponent that are those of a double.
* `toNat_pack_roundWithAccuracy` — the bits of a rounded outcome are those of the nearest double.
-/

namespace WidgetSkin.Decimal

open Float.Model (Format totalExponent)
open Float.Model.UnpackedFloat

/-! ## Mantissas with a rest -/

/-- The number `q` is the mantissa, a half if the round bit is set, and a rest below a half that
the sticky bit tells from zero. -/
def Represents (em : ExtendedMantissa) (q : ℚ) : Prop :=
  ∃ rest : ℚ, q = em.mantissa + em.roundBit.toNat / 2 + rest ∧ 0 ≤ rest ∧ rest < 1 / 2 ∧
    (rest = 0 ↔ em.stickyBit = false)

theorem cast_toNat_le_one (b : Bool) : (b.toNat : ℚ) ≤ 1 := by
  exact_mod_cast Bool.toNat_le b

namespace Represents

variable {em : ExtendedMantissa} {q : ℚ}

theorem mantissa_le (h : Represents em q) : (em.mantissa : ℚ) ≤ q := by
  obtain ⟨rest, rfl, hzero, -, -⟩ := h
  have hbit : (0 : ℚ) ≤ em.roundBit.toNat := Nat.cast_nonneg _
  linarith

theorem lt_mantissa_add_one (h : Represents em q) : q < em.mantissa + 1 := by
  obtain ⟨rest, rfl, -, hhalf, -⟩ := h
  linarith [cast_toNat_le_one em.roundBit]

theorem shiftRightOne (h : Represents em q) : Represents em.shiftRightOne (q / 2) := by
  obtain ⟨rest, rfl, hzero, hhalf, hsticky⟩ := h
  have hmantissa : (em.mantissa : ℚ) = 2 * (em.mantissa / 2 : Nat) + (em.mantissa % 2 : Nat) := by
    exact_mod_cast (Nat.div_add_mod em.mantissa 2).symm
  have hodd : (em.mantissa % 2 != 0).toNat = em.mantissa % 2 := by
    rcases Nat.mod_two_eq_zero_or_one em.mantissa with h | h <;> simp [h]
  have hbit : (0 : ℚ) ≤ em.roundBit.toNat := Nat.cast_nonneg _
  -- the old round bit goes behind the new one
  refine ⟨em.roundBit.toNat / 4 + rest / 2, ?_, by positivity, ?_, ?_⟩
  · simp only [ExtendedMantissa.shiftRightOne, hodd]
    linarith
  · linarith [cast_toNat_le_one em.roundBit]
  · rw [add_eq_zero_iff_of_nonneg (by positivity) (by positivity)]
    simp [ExtendedMantissa.shiftRightOne, hsticky]

theorem shiftRight (h : Represents em q) (n : Nat) : Represents (em >>> n) (q / 2 ^ n) := by
  change Represents (n.repeat ExtendedMantissa.shiftRightOne em) _
  induction n with
  | zero => simpa [Nat.repeat] using h
  | succ n ih =>
    rw [Nat.repeat, pow_succ, ← div_div]
    exact ih.shiftRightOne

theorem roundedMantissa_eq {n d : Nat} (hd : 0 < d) (h : Represents em ((n : ℚ) / d)) :
    em.roundedMantissa = roundHalfEven n d := by
  obtain ⟨m, round, sticky⟩ := em
  obtain ⟨rest, hq, hzero, hhalf, hsticky⟩ := h
  dsimp only at hq hsticky
  symm
  cases round with
  | false =>
    have hrounded : ExtendedMantissa.roundedMantissa ⟨m, false, sticky⟩ = m := by
      cases sticky <;> rfl
    rw [Bool.toNat_false, Nat.cast_zero] at hq
    rw [hrounded]
    refine roundHalfEven_eq hd (by linarith) (by linarith) ?_
    rintro (htie | htie) <;> linarith
  | true =>
    rw [Bool.toNat_true, Nat.cast_one] at hq
    cases sticky with
    | false =>
      have hrest : rest = 0 := hsticky.2 rfl
      have hbit : ((m % 2 : Nat) : ℚ) ≤ 1 := by
        exact_mod_cast Nat.le_of_lt_succ (Nat.mod_lt m two_pos)
      have hnonneg : (0 : ℚ) ≤ (m % 2 : Nat) := Nat.cast_nonneg _
      change roundHalfEven n d = m + m % 2
      refine roundHalfEven_eq hd ?_ ?_ (fun _ => by omega) <;> push_cast at * <;> linarith
    | true =>
      have hrest : rest ≠ 0 := fun h => Bool.noConfusion (hsticky.1 h)
      change roundHalfEven n d = m + 1
      refine roundHalfEven_eq hd ?_ ?_ ?_ <;> push_cast
      · linarith
      · linarith
      · rintro (htie | htie)
        · exact absurd (by linarith) hrest
        · linarith

theorem ofExact (m : Nat) : Represents (.ofMantissaAndAccuracy m .exact) m :=
  ⟨0, by simp [ExtendedMantissa.ofMantissaAndAccuracy]⟩

/-- The two bits of a quotient are read off its remainder. -/
theorem ofFraction {n d : Nat} (hd : 0 < d) :
    Represents (.ofMantissaAndAccuracy (n / d) (accuracyOfFraction (n % d) d)) ((n : ℚ) / d) := by
  have hd' : (0 : ℚ) < d := by exact_mod_cast hd
  have hq : (n : ℚ) / d = (n / d : Nat) + ((n % d : Nat) : ℚ) / d := by
    rw [div_eq_iff hd'.ne', add_mul, div_mul_cancel₀ _ hd'.ne']
    exact_mod_cast (Nat.div_add_mod' n d).symm
  have hlt : ((n % d : Nat) : ℚ) < d := by exact_mod_cast Nat.mod_lt n hd
  rw [hq]
  generalize n / d = m
  generalize n % d = r at *
  rw [accuracyOfFraction]
  split
  · next h =>
    subst h
    simpa using ofExact m
  · next h =>
    have hr : (0 : ℚ) < r := by exact_mod_cast Nat.pos_of_ne_zero h
    have hpos : (0 : ℚ) < r / d := div_pos hr hd'
    rcases lt_trichotomy (2 * r) d with hcmp | hcmp | hcmp
    · rw [Nat.compare_eq_lt.2 hcmp]
      have hhalf : (r : ℚ) / d < 1 / 2 := by
        rw [div_lt_iff₀ hd']
        qify at hcmp
        linarith
      exact ⟨r / d, by simp [ExtendedMantissa.ofMantissaAndAccuracy], hpos.le, hhalf,
        by simpa [ExtendedMantissa.ofMantissaAndAccuracy] using ⟨h, hd.ne'⟩⟩
    · rw [Nat.compare_eq_eq.2 hcmp]
      have hhalf : (r : ℚ) / d = 1 / 2 := by
        rw [div_eq_iff hd'.ne']
        qify at hcmp
        linarith
      rw [hhalf]
      exact ⟨0, by simp [ExtendedMantissa.ofMantissaAndAccuracy]⟩
    · rw [Nat.compare_eq_gt.2 hcmp]
      have hhalf : 1 / 2 < (r : ℚ) / d := by
        rw [lt_div_iff₀ hd']
        qify at hcmp
        linarith
      have hone : (r : ℚ) / d < 1 := (div_lt_one hd').2 hlt
      refine ⟨r / d - 1 / 2, ?_, by linarith, by linarith, ?_⟩
      · simp [ExtendedMantissa.ofMantissaAndAccuracy]
      · simpa [ExtendedMantissa.ofMantissaAndAccuracy] using (sub_pos.2 hhalf).ne'

end Represents

theorem mantissa_le_roundedMantissa (em : ExtendedMantissa) :
    em.mantissa ≤ em.roundedMantissa ∧ em.roundedMantissa ≤ em.mantissa + 1 := by
  obtain ⟨m, round, sticky⟩ := em
  cases round <;> cases sticky <;>
    simp only [ExtendedMantissa.roundedMantissa, ExtendedMantissa.accuracy,
      Accuracy.roundToNearestEven] <;>
    omega

/-! ## The bits of a double -/

theorem toNat_packComponents (s : Sign) (e : BitVec 11) (m : BitVec 52) :
    (packComponents Format.binary64 s e m).toNat =
      s.toBitVec.toNat * signBit + e.toNat * leadingBit + m.toNat := by
  have hexponent := e.isLt
  have hmantissa := m.isLt
  rw [packComponents, BitVec.toNat_append, ← Nat.shiftLeft_add_eq_or_of_lt m.isLt,
    BitVec.toNat_append, ← Nat.shiftLeft_add_eq_or_of_lt e.isLt, Nat.shiftLeft_eq,
    Nat.shiftLeft_eq, signBit, leadingBit]
  omega

theorem toNat_pack_finite (s : Sign) {b : Binary} (hb : b.Canonical) (hpos : 0 < b.mantissa) :
    (pack Format.binary64 (.finite s b.mantissa b.exponent hpos)).toNat =
      s.toBitVec.toNat * signBit + min infiniteMagnitude b.toMagnitude := by
  obtain ⟨m, e⟩ := b
  obtain ⟨hleast, htop, hbottom⟩ := hb
  dsimp only at hleast htop hbottom hpos
  have hbias : (Format.binary64.exponentBias : Int) = 1023 := rfl
  simp only [pack, Binary.toMagnitude, hbias]
  rw [show Binary.leastExponent = -1074 from rfl] at *
  rw [show leadingBit = 2 ^ 52 from rfl] at *
  by_cases hinfinite : 972 ≤ e
  · rw [if_pos (by omega), packedInfinity, toNat_packComponents]
    have hfull : (-1#11).toNat = 2047 := rfl
    have hnone : (0 : BitVec 52).toNat = 0 := rfl
    rw [hfull, hnone, infiniteMagnitude, show leadingBit = 2 ^ 52 from rfl]
    omega
  · rw [if_neg (by omega)]
    by_cases hnormal : 2 ^ 52 ≤ m
    · have hlog : m.log2 = 52 := (Nat.log2_eq_iff (by omega)).2 (by omega)
      rw [if_pos (by rw [hlog]; rfl), toNat_packComponents, BitVec.toNat_ofNat, BitVec.toNat_ofNat,
        infiniteMagnitude, show leadingBit = 2 ^ 52 from rfl]
      omega
    · have hlog : m.log2 < 52 := (Nat.log2_lt (by omega)).2 (by omega)
      rw [if_neg (by simp [Format.mantissaBits]; omega), toNat_packComponents, BitVec.toNat_ofNat,
        BitVec.toNat_ofNat, infiniteMagnitude, show leadingBit = 2 ^ 52 from rfl]
      omega

/-! ## Rounding -/

/-- A mantissa that rounding has made one bit too long loses a zero. -/
theorem shiftToTargetExponent_exact {r : Nat} {e : Int} (hr : r ≤ 2 ^ 53)
    (he : Binary.leastExponent ≤ e) :
    shiftToTargetExponent Format.binary64 r e .exact =
      if r < 2 ^ 53 then (⟨r, false, false⟩, e) else (⟨2 ^ 52, false, false⟩, e + 1) := by
  rw [show Binary.leastExponent = -1074 from rfl] at he
  have hmantissa : (Format.binary64.mantissaBits : Int) = 53 := rfl
  have hleast : Format.binary64.minExponent = -1074 := rfl
  split
  · next hlt =>
    have hlog : r.log2 < 53 := by
      rcases Nat.eq_zero_or_pos r with rfl | hpos
      · decide
      · exact (Nat.log2_lt hpos.ne').2 hlt
    have hshift : (Format.binary64.targetExponent (totalExponent r e) - e).toNat = 0 := by
      rw [Format.targetExponent, totalExponent, hmantissa, hleast]
      omega
    simp only [shiftToTargetExponent, shiftToExponent]
    rw [hshift, Nat.cast_zero, add_zero]
    rfl
  · next hge =>
    obtain rfl : r = 2 ^ 53 := by omega
    have hshift : (Format.binary64.targetExponent (totalExponent (2 ^ 53) e) - e).toNat = 1 := by
      rw [Format.targetExponent, totalExponent, hmantissa, hleast, Nat.log2_two_pow]
      omega
    simp only [shiftToTargetExponent, shiftToExponent]
    rw [hshift, Nat.cast_one]
    rfl

theorem targetExponent_totalExponent (m : Nat) (e : Int) :
    Format.binary64.targetExponent (totalExponent m e) =
      max (m.log2 + e - 52) Binary.leastExponent := by
  have hmantissa : (Format.binary64.mantissaBits : Int) = 53 := rfl
  have hleast : Format.binary64.minExponent = Binary.leastExponent := rfl
  rw [Format.targetExponent, totalExponent, hmantissa, hleast]
  congr 1
  omega

/-- The first shift brings a number to the exponent that fits it. -/
theorem exists_shiftToTargetExponent {m : Nat} {e : Int} {acc : Accuracy} {v : ℚ}
    (hbits : 52 ≤ m.log2 ∨ e ≤ Binary.leastExponent)
    (h : Represents (.ofMantissaAndAccuracy m acc) (v / 2 ^ e)) :
    ∃ em f, shiftToTargetExponent Format.binary64 m e acc = (em, f) ∧ Fits v f ∧
      Represents em (v / 2 ^ f) := by
  have hmantissa : (ExtendedMantissa.ofMantissaAndAccuracy m acc).mantissa = m := by
    rcases acc with _ | (_ | _ | _) <;> rfl
  obtain ⟨k, hk⟩ := Int.le.dest (by omega : e ≤ max (m.log2 + e - 52) Binary.leastExponent)
  have hshift : (Format.binary64.targetExponent (totalExponent m e) - e).toNat = k := by
    rw [targetExponent_totalExponent]
    omega
  have hdiv : v / 2 ^ (e + k) = v / 2 ^ e / 2 ^ k := by
    rw [zpow_add₀ two_ne_zero, zpow_natCast, div_div]
  have hpow : (0 : ℚ) < 2 ^ k := by positivity
  refine ⟨ExtendedMantissa.ofMantissaAndAccuracy m acc >>> k, e + k, ?_, ⟨by omega, ?_, ?_⟩, ?_⟩
  · simp only [shiftToTargetExponent, shiftToExponent]
    rw [hshift]
  · have htop : v / 2 ^ e < 2 ^ (53 + k) :=
      calc v / 2 ^ e < m + 1 := hmantissa ▸ h.lt_mantissa_add_one
        _ ≤ 2 ^ (m.log2 + 1) := by exact_mod_cast Nat.lt_log2_self
        _ ≤ 2 ^ (53 + k) := pow_le_pow_right₀ one_le_two (by omega)
    rwa [hdiv, div_lt_iff₀ hpow, ← pow_add]
  · refine or_iff_not_imp_left.2 fun hleast => ?_
    have hlog : m.log2 = 52 + k := by omega
    have hbottom : 2 ^ (52 + k) ≤ v / 2 ^ e :=
      calc (2 : ℚ) ^ (52 + k) = 2 ^ m.log2 := by rw [hlog]
        _ ≤ m := by exact_mod_cast Nat.log2_self_le (by rintro rfl; simp at hlog; omega)
        _ ≤ v / 2 ^ e := hmantissa ▸ h.mantissa_le
    rwa [hdiv, le_div_iff₀ hpow, ← pow_add]
  · rw [hdiv]
    exact h.shiftRight k

theorem toNat_pack_of_shift (s : Sign) {m : Nat} {e f : Int} {acc : Accuracy}
    {em : ExtendedMantissa} (h : shiftToTargetExponent Format.binary64 m e acc = (em, f))
    (hleast : Binary.leastExponent ≤ f) (htop : em.roundedMantissa ≤ 2 ^ 53)
    (hbottom : f = Binary.leastExponent ∨ 2 ^ 52 ≤ em.roundedMantissa) :
    (pack Format.binary64 (roundWithAccuracy Format.binary64 s m e acc)).toNat =
      s.toBitVec.toNat * signBit +
        min infiniteMagnitude (Binary.toMagnitude ⟨em.roundedMantissa, f⟩) := by
  have hexact := shiftToTargetExponent_exact htop hleast
  by_cases hlt : em.roundedMantissa < 2 ^ 53
  · rw [if_pos hlt] at hexact
    simp only [roundWithAccuracy, h, hexact]
    by_cases hzero : em.roundedMantissa = 0
    · have hf : f = Binary.leastExponent := hbottom.resolve_right (by omega)
      rw [dif_pos hzero, hzero, hf]
      simp [pack, packedZero, toNat_packComponents, Binary.toMagnitude]
    · rw [dif_neg hzero]
      exact toNat_pack_finite s (b := ⟨_, f⟩) ⟨hleast, hlt, hbottom⟩ _
  · have hr : em.roundedMantissa = 2 ^ 53 := by omega
    rw [if_neg hlt] at hexact
    simp only [roundWithAccuracy, h, hexact]
    have hcarry : Binary.toMagnitude ⟨em.roundedMantissa, f⟩ =
        Binary.toMagnitude ⟨2 ^ 52, f + 1⟩ := by
      simp only [Binary.toMagnitude, hr, show leadingBit = 2 ^ 52 from rfl]
      omega
    rw [dif_neg (by decide), hcarry]
    exact toNat_pack_finite s (b := ⟨2 ^ 52, f + 1⟩)
      ⟨hleast.trans (by dsimp only; omega), (by decide : 2 ^ 52 < 2 * leadingBit),
        .inr (le_refl leadingBit)⟩ _

/-- The bits of a rounded outcome are those of the nearest double, provided that the mantissa has
all bits of a double or comes with the least exponent. -/
theorem toNat_pack_roundWithAccuracy (s : Sign) {m : Nat} {e : Int} {acc : Accuracy}
    {num den : Nat} (hnum : 0 < num) (hden : 0 < den)
    (hbits : 52 ≤ m.log2 ∨ e ≤ Binary.leastExponent)
    (h : Represents (.ofMantissaAndAccuracy m acc) ((num : ℚ) / den / 2 ^ e)) :
    (pack Format.binary64 (roundWithAccuracy Format.binary64 s m e acc)).toNat =
      s.toBitVec.toNat * signBit + nearestMagnitude num den := by
  have hv : (0 : ℚ) ≤ num / den := by positivity
  obtain ⟨em, f, hshift, hfits, hem⟩ := exists_shiftToTargetExponent hbits h
  obtain rfl := hfits.unique hv (fits_exponentFor hnum hden)
  have hrounded : em.roundedMantissa = roundHalfEven (scaleDown num den (exponentFor num den)).1
      (scaleDown num den (exponentFor num den)).2 := by
    rw [← scaleDown_div] at hem
    exact hem.roundedMantissa_eq (scaleDown_pos hden _)
  have hnearest : nearestMagnitude num den =
      min infiniteMagnitude (Binary.toMagnitude ⟨em.roundedMantissa, exponentFor num den⟩) := by
    simp only [nearestMagnitude, if_neg hnum.ne', hrounded]
  obtain ⟨hlow, hhigh⟩ := mantissa_le_roundedMantissa em
  have htop : em.mantissa < 2 ^ 53 := by
    have := hem.mantissa_le.trans_lt hfits.lt_top
    exact_mod_cast this
  have hbottom : exponentFor num den = Binary.leastExponent ∨ 2 ^ 52 ≤ em.mantissa := by
    refine hfits.le_bottom.imp_right fun h => ?_
    have := h.trans_lt hem.lt_mantissa_add_one
    exact Nat.le_of_lt_succ (by exact_mod_cast this)
  rw [hnearest, toNat_pack_of_shift s hshift hfits.least_le (by omega)
    (hbottom.imp_right hlow.trans')]

end WidgetSkin.Decimal
