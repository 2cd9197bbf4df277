import Mathlib.Algebra.Order.Field.Power
import Mathlib.Data.Rat.Cast.Order
import Mathlib.Tactic.FieldSimp
import Mathlib.Tactic.Linarith
import Mathlib.Tactic.Positivity
import Mathlib.Tactic.Qify
import Mathlib.Tactic.Ring
import WidgetSkin.Decimal.Binary

/-!
# The nearest double

A fraction whose distance from a double is at most half of the last place is read as that
double. Below a power of two the last place is half as wide, so that the lower distance is a
quarter there; a distance of exactly one half counts if the mantissa is even.

## Main definitions

* `Binary.Canonical` — a mantissa and an exponent as those of a double.
* `Binary.Near` — the numbers that round to a double.
* `Fits` — the exponent of two with which a number is rounded.

## Main statements

* `roundHalfEven_eq` — the nearest integer.
* `fits_exponentFor` — the exponent that is chosen fits.
* `nearestMagnitude_eq`, `nearestDecimal_eq` — what is near to a double is read as it.
* `nearestMagnitude_mono` — rounding keeps the order.
-/

namespace WidgetSkin.Decimal

theorem zpow_eq_div {a : ℚ} (ha : a ≠ 0) (k : ℤ) : a ^ k = a ^ k.toNat / a ^ (-k).toNat := by
  rw [eq_div_iff (pow_ne_zero _ ha), ← zpow_natCast, ← zpow_natCast, ← zpow_add₀ ha]
  congr 1
  omega

theorem cast_lt_two_pow_log2 (n : Nat) : (n : ℚ) < 2 ^ (n.log2 + 1) := by
  have h : n < 2 ^ (n.log2 + 1) := Nat.lt_log2_self
  exact_mod_cast h

/-! ## The nearest integer -/

theorem roundHalfEven_eq {n d m : Nat} (hd : 0 < d) (hlow : (m : ℚ) - 1 / 2 ≤ n / d)
    (hhigh : (n : ℚ) / d ≤ m + 1 / 2)
    (htie : (n : ℚ) / d = m - 1 / 2 ∨ (n : ℚ) / d = m + 1 / 2 → m % 2 = 0) :
    roundHalfEven n d = m := by
  have hd' : (0 : ℚ) < d := by exact_mod_cast hd
  rw [le_div_iff₀ hd'] at hlow
  rw [div_le_iff₀ hd'] at hhigh
  rw [div_eq_iff hd'.ne', div_eq_iff hd'.ne'] at htie
  have hlow' : 2 * (d * m) ≤ 2 * n + d := by qify; linarith
  have hhigh' : 2 * n ≤ 2 * (d * m) + d := by qify; linarith
  have htie' : 2 * n + d = 2 * (d * m) ∨ 2 * n = 2 * (d * m) + d → m % 2 = 0 := by
    rintro (h | h) <;> qify at h
    · exact htie (.inl (by linarith))
    · exact htie (.inr (by linarith))
  have hdiv := Nat.div_add_mod n d
  have hmod := Nat.mod_lt n hd
  simp only [roundHalfEven]
  generalize n / d = low at *
  generalize n % d = rest at *
  -- the nearest integer is the quotient or the one above it
  have hle : low ≤ m := by
    by_contra h
    have := Nat.mul_le_mul_left d (Nat.lt_of_not_le h)
    rw [Nat.mul_succ] at this
    omega
  have hge : m ≤ low + 1 := by
    by_contra h
    have := Nat.mul_le_mul_left d (Nat.lt_of_not_le h)
    rw [Nat.mul_succ, Nat.mul_succ] at this
    omega
  rcases (by omega : m = low ∨ m = low + 1) with rfl | rfl
  · rw [if_pos (by omega)]
  · rw [Nat.mul_succ] at hlow' hhigh' htie'
    rw [if_neg (by omega)]

/-- The nearest integer is at most one half away; a half goes to the even one. -/
theorem roundHalfEven_near {n d : Nat} (hd : 0 < d) :
    (roundHalfEven n d : ℚ) - 1 / 2 ≤ n / d ∧ (n : ℚ) / d ≤ roundHalfEven n d + 1 / 2 ∧
      ((n : ℚ) / d = roundHalfEven n d - 1 / 2 ∨ (n : ℚ) / d = roundHalfEven n d + 1 / 2 →
        roundHalfEven n d % 2 = 0) := by
  have hd' : (0 : ℚ) < d := by exact_mod_cast hd
  have hnear : 2 * (d * roundHalfEven n d) ≤ 2 * n + d ∧ 2 * n ≤ 2 * (d * roundHalfEven n d) + d ∧
      (2 * n + d = 2 * (d * roundHalfEven n d) ∨ 2 * n = 2 * (d * roundHalfEven n d) + d →
        roundHalfEven n d % 2 = 0) := by
    have hdiv := Nat.div_add_mod n d
    have hmod := Nat.mod_lt n hd
    simp only [roundHalfEven]
    generalize n / d = low at *
    generalize n % d = rest at *
    split
    · omega
    · rw [Nat.mul_succ]
      omega
  obtain ⟨hlow, hhigh, htie⟩ := hnear
  rw [le_div_iff₀ hd', div_le_iff₀ hd', div_eq_iff hd'.ne', div_eq_iff hd'.ne']
  qify at hlow hhigh
  refine ⟨by linarith, by linarith, fun h => htie (h.imp (fun h => ?_) fun h => ?_)⟩
  · qify
    linarith
  · qify
    linarith

/-- The nearest integer keeps the order. -/
theorem roundHalfEven_mono {n d n' d' : Nat} (hd : 0 < d) (hd' : 0 < d')
    (h : (n : ℚ) / d ≤ n' / d') : roundHalfEven n d ≤ roundHalfEven n' d' := by
  obtain ⟨hlow, -, htie⟩ := roundHalfEven_near (n := n) hd
  obtain ⟨-, hhigh, htie'⟩ := roundHalfEven_near (n := n') hd'
  by_contra hlt
  have hstep : (roundHalfEven n' d' : ℚ) + 1 ≤ roundHalfEven n d := by exact_mod_cast not_le.1 hlt
  -- both numbers are the middle between two integers that would both be even
  have heven := htie (.inl (by linarith))
  have heven' := htie' (.inr (by linarith))
  have hsucc : roundHalfEven n d = roundHalfEven n' d' + 1 := by
    have : (roundHalfEven n d : ℚ) = roundHalfEven n' d' + 1 := by linarith
    exact_mod_cast this
  omega

theorem roundHalfEven_le {n d m : Nat} (hd : 0 < d) (h : (n : ℚ) / d ≤ m) :
    roundHalfEven n d ≤ m := by
  have hone : roundHalfEven m 1 = m := by simp [roundHalfEven, Nat.mod_one]
  rw [← hone]
  exact roundHalfEven_mono hd one_pos (by simpa using h)

theorem le_roundHalfEven {n d m : Nat} (hd : 0 < d) (h : (m : ℚ) ≤ n / d) :
    m ≤ roundHalfEven n d := by
  have hone : roundHalfEven m 1 = m := by simp [roundHalfEven, Nat.mod_one]
  rw [← hone]
  exact roundHalfEven_mono one_pos hd (by simpa using h)

/-! ## The exponent of two -/

section Exponent

variable {num den : Nat}

theorem scaleDown_div (num den : Nat) (e : ℤ) :
    ((scaleDown num den e).1 : ℚ) / (scaleDown num den e).2 = (num : ℚ) / den / 2 ^ e := by
  simp only [scaleDown, Nat.pow_eq, Nat.cast_mul, Nat.cast_pow, Nat.cast_ofNat,
    zpow_eq_div two_ne_zero e]
  field_simp

theorem scaleDown_pos (hden : 0 < den) (e : ℤ) : 0 < (scaleDown num den e).2 := by
  simp only [scaleDown, Nat.pow_eq]
  positivity

/-- Rounding `v` with the exponent `e` leaves a mantissa of 53 bits, or fewer with the least
exponent. -/
structure Fits (v : ℚ) (e : ℤ) : Prop where
  least_le : Binary.leastExponent ≤ e
  lt_top : v / 2 ^ e < 2 ^ 53
  le_bottom : e = Binary.leastExponent ∨ 2 ^ 52 ≤ v / 2 ^ e

/-- A greater exponent leaves at most half as much. -/
theorem div_zpow_le_half {v : ℚ} (hv : 0 ≤ v) {e f : ℤ} (h : e < f) :
    v / 2 ^ f ≤ v / 2 ^ e / 2 := by
  have hpow : (2 : ℚ) ^ e * 2 ≤ 2 ^ f := by
    rw [← zpow_add_one₀ two_ne_zero]
    exact zpow_le_zpow_right₀ one_le_two h
  rw [div_div]
  exact div_le_div_of_nonneg_left hv (mul_pos (zpow_pos two_pos e) two_pos) hpow

theorem Fits.mono {v w : ℚ} (hv : 0 ≤ v) (h : v ≤ w) {e f : ℤ} (he : Fits v e) (hf : Fits w f) :
    e ≤ f := by
  by_contra hlt
  have hbottom := he.le_bottom.resolve_left (by have := hf.least_le; omega)
  have hhalf := div_zpow_le_half (hv.trans h) (not_le.1 hlt)
  have hpow : (0 : ℚ) < 2 ^ e := zpow_pos two_pos _
  have hle : v / 2 ^ e ≤ w / 2 ^ e := by gcongr
  linarith [hf.lt_top]

theorem Fits.unique {v : ℚ} (hv : 0 ≤ v) {e f : ℤ} (he : Fits v e) (hf : Fits v f) : e = f :=
  le_antisymm (he.mono hv le_rfl hf) (hf.mono hv le_rfl he)

/-- The lengths of numerator and denominator give the exponent up to one. -/
theorem div_zpow_log2_bounds (hnum : 0 < num) (hden : 0 < den) :
    2 ^ 52 < (num : ℚ) / den / 2 ^ ((num.log2 : ℤ) - den.log2 - 53) ∧
      (num : ℚ) / den / 2 ^ ((num.log2 : ℤ) - den.log2 - 53) < 2 ^ 54 := by
  have hden' : (0 : ℚ) < den := by exact_mod_cast hden
  have hnum_low : (2 : ℚ) ^ num.log2 ≤ num := by exact_mod_cast Nat.log2_self_le hnum.ne'
  have hnum_high : (num : ℚ) < 2 * 2 ^ num.log2 := pow_succ' (2 : ℚ) _ ▸ cast_lt_two_pow_log2 num
  have hden_low : (2 : ℚ) ^ den.log2 ≤ den := by exact_mod_cast Nat.log2_self_le hden.ne'
  have hden_high : (den : ℚ) < 2 * 2 ^ den.log2 := pow_succ' (2 : ℚ) _ ▸ cast_lt_two_pow_log2 den
  have hpow : (2 : ℚ) ^ ((num.log2 : ℤ) - den.log2 - 53) =
      2 ^ num.log2 / 2 ^ den.log2 / 2 ^ 53 := by
    rw [zpow_sub₀ two_ne_zero, zpow_sub₀ two_ne_zero]
    norm_cast
  rw [hpow]
  have ha : (0 : ℚ) < 2 ^ num.log2 := by positivity
  have hb : (0 : ℚ) < 2 ^ den.log2 := by positivity
  generalize (2 : ℚ) ^ num.log2 = a at *
  generalize (2 : ℚ) ^ den.log2 = b at *
  have hsplit : (num : ℚ) / den / (a / b / 2 ^ 53) = num * b * 2 ^ 53 / (den * a) := by
    field_simp
  rw [hsplit, lt_div_iff₀ (by positivity), div_lt_iff₀ (by positivity)]
  constructor
  · nlinarith
  · nlinarith

theorem fits_exponentFor (hnum : 0 < num) (hden : 0 < den) :
    Fits ((num : ℚ) / den) (exponentFor num den) := by
  obtain ⟨hlow, hhigh⟩ := div_zpow_log2_bounds hnum hden
  have hv : (0 : ℚ) ≤ num / den := by positivity
  simp only [exponentFor]
  generalize hlength : (num.log2 : ℤ) - den.log2 - 53 = length at *
  generalize hstart : max Binary.leastExponent length = start
  have hmantissa : (scaleDown num den start).1 / (scaleDown num den start).2 < 2 * leadingBit ↔
      (num : ℚ) / den / 2 ^ start < 2 ^ 53 := by
    have hpos : (0 : ℚ) < (scaleDown num den start).2 := by exact_mod_cast scaleDown_pos hden start
    rw [Nat.div_lt_iff_lt_mul (scaleDown_pos hden start), ← scaleDown_div, div_lt_iff₀ hpos]
    rw [show 2 * leadingBit = 2 ^ 53 from rfl]
    qify
  have htop : (num : ℚ) / den / 2 ^ start < 2 ^ 54 := by
    rcases (by omega : start = length ∨ length < start) with rfl | h
    · exact hhigh
    · linarith [div_zpow_le_half hv h]
  split
  · next h =>
    refine ⟨by omega, hmantissa.1 h, ?_⟩
    rcases (by omega : start = Binary.leastExponent ∨ start = length) with h | rfl
    · exact .inl h
    · exact .inr hlow.le
  · next h =>
    have hhalf : (num : ℚ) / den / 2 ^ (start + 1) = (num : ℚ) / den / 2 ^ start / 2 := by
      rw [zpow_add_one₀ two_ne_zero, div_div _ _ (2 : ℚ)]
    have hge := not_lt.1 (mt hmantissa.2 h)
    exact ⟨by omega, by linarith, .inr (by linarith)⟩

end Exponent

/-! ## The nearest magnitude -/

namespace Binary

/-- Mantissa and exponent are those of a double. -/
structure Canonical (b : Binary) : Prop where
  least_le : leastExponent ≤ b.exponent
  lt_top : b.mantissa < 2 * leadingBit
  le_bottom : b.exponent = leastExponent ∨ leadingBit ≤ b.mantissa

/-- The number `v` rounds to the double. -/
structure Near (b : Binary) (v : ℚ) : Prop where
  low : (b.mantissa : ℚ) - 1 / 2 ≤ v / 2 ^ b.exponent
  high : v / 2 ^ b.exponent ≤ b.mantissa + 1 / 2
  tie : v / 2 ^ b.exponent = b.mantissa - 1 / 2 ∨ v / 2 ^ b.exponent = b.mantissa + 1 / 2 →
    b.mantissa % 2 = 0
  /-- Below a power of two the next double is half as far away. -/
  boundary : b.mantissa = leadingBit → leastExponent < b.exponent →
    (b.mantissa : ℚ) - 1 / 4 ≤ v / 2 ^ b.exponent

theorem canonical_ofMagnitude (m : Nat) : (ofMagnitude m).Canonical := by
  have hmod := Nat.mod_lt m (by decide : 0 < leadingBit)
  simp only [ofMagnitude]
  generalize m / leadingBit = exponent
  split
  · exact ⟨le_refl _, by dsimp only; omega, .inl rfl⟩
  · refine ⟨?_, ?_, .inr ?_⟩ <;> dsimp only <;> omega

theorem toMagnitude_ofMagnitude (m : Nat) : (ofMagnitude m).toMagnitude = m := by
  have hsplit := Nat.div_add_mod' m leadingBit
  simp only [ofMagnitude]
  generalize m / leadingBit = exponent at *
  split
  · next h => simpa [toMagnitude, h] using hsplit
  · next h =>
    have hexponent : ((exponent : Int) - 1 + leastExponent - leastExponent).toNat =
        exponent - 1 := by omega
    have hle : leadingBit ≤ exponent * leadingBit := Nat.le_mul_of_pos_left _ (by omega)
    simp only [toMagnitude, hexponent, Nat.sub_mul, Nat.one_mul]
    omega

theorem mantissa_ofMagnitude_pos {m : Nat} (h : m ≠ 0) : 0 < (ofMagnitude m).mantissa := by
  have hsplit := Nat.div_add_mod' m leadingBit
  simp only [ofMagnitude]
  split
  · next hzero =>
    rw [hzero] at hsplit
    dsimp only
    omega
  · have : 0 < leadingBit := by decide
    dsimp only
    omega

end Binary

/-- A positive number that rounds to a finite double is read as it. -/
theorem nearestMagnitude_eq {b : Binary} (hb : b.Canonical)
    (hfinite : b.toMagnitude < infiniteMagnitude) {num den : Nat} (hnum : 0 < num)
    (hden : 0 < den) (h : b.Near ((num : ℚ) / den)) :
    nearestMagnitude num den = b.toMagnitude := by
  have hv : (0 : ℚ) ≤ num / den := by positivity
  have hfits := fits_exponentFor hnum hden
  have hpos : ∀ e, 0 < (scaleDown num den e).2 := scaleDown_pos hden
  -- it is enough that rounding with the exponent that fits gives the double
  suffices hround : ∀ e, exponentFor num den = e →
      Binary.toMagnitude ⟨roundHalfEven (scaleDown num den e).1 (scaleDown num den e).2, e⟩ =
        b.toMagnitude by
    simp only [nearestMagnitude, if_neg hnum.ne', hround _ rfl]
    omega
  intro e he
  rw [he] at hfits
  have htop : (b.mantissa : ℚ) + 1 ≤ 2 ^ 53 := by exact_mod_cast hb.lt_top
  by_cases hbottom : b.exponent = Binary.leastExponent ∨ 2 ^ 52 ≤ (num : ℚ) / den / 2 ^ b.exponent
  · obtain rfl := hfits.unique hv ⟨hb.least_le, by linarith [h.high], hbottom⟩
    rw [roundHalfEven_eq (hpos _) (by simpa only [scaleDown_div] using h.low)
      (by simpa only [scaleDown_div] using h.high) (by simpa only [scaleDown_div] using h.tie)]
  · -- just below a power of two: the mantissa is rounded up with the exponent one lower
    obtain ⟨hleast, hbelow⟩ := not_or.1 hbottom
    have hlt : Binary.leastExponent < b.exponent := lt_of_le_of_ne hb.least_le (Ne.symm hleast)
    have hmantissa : b.mantissa = leadingBit := by
      refine le_antisymm ?_ (hb.le_bottom.resolve_left hleast)
      have hlow := h.low
      rw [not_le] at hbelow
      have : (b.mantissa : ℚ) < 2 ^ 52 + 1 := by linarith
      have : b.mantissa < 2 ^ 52 + 1 := by exact_mod_cast this
      exact Nat.le_of_lt_succ this
    have hquarter := h.boundary hmantissa hlt
    rw [hmantissa, show ((leadingBit : Nat) : ℚ) = 2 ^ 52 by norm_num [leadingBit]] at hquarter
    rw [not_le] at hbelow
    have hdouble : (num : ℚ) / den / 2 ^ (b.exponent - 1) = 2 * (num / den / 2 ^ b.exponent) := by
      rw [zpow_sub_one₀ two_ne_zero]
      field_simp
    have hleast := hb.least_le
    obtain rfl : e = b.exponent - 1 :=
      hfits.unique hv ⟨by omega, by linarith, .inr (by linarith)⟩
    have hround : roundHalfEven (scaleDown num den (b.exponent - 1)).1
        (scaleDown num den (b.exponent - 1)).2 = 2 * leadingBit := by
      have htwo : ((2 * leadingBit : Nat) : ℚ) = 2 ^ 53 := by norm_num [leadingBit]
      refine roundHalfEven_eq (hpos _) ?_ ?_ (fun _ => by decide)
      · rw [scaleDown_div, hdouble, htwo]
        linarith
      · rw [scaleDown_div, hdouble, htwo]
        linarith
    rw [hround]
    simp only [Binary.toMagnitude, hmantissa]
    obtain ⟨n, hn⟩ : ∃ n : Nat, b.exponent - Binary.leastExponent = n + 1 :=
      ⟨(b.exponent - Binary.leastExponent).toNat - 1, by omega⟩
    have hupper : (b.exponent - Binary.leastExponent).toNat = n + 1 := by omega
    have hlower : (b.exponent - 1 - Binary.leastExponent).toNat = n := by omega
    rw [hupper, hlower, Nat.add_mul]
    omega

/-- The nearest double keeps the order. -/
theorem nearestMagnitude_mono {num den num' den' : Nat} (hnum : 0 < num) (hden : 0 < den)
    (hden' : 0 < den') (h : (num : ℚ) / den ≤ num' / den') :
    nearestMagnitude num den ≤ nearestMagnitude num' den' := by
  have hv : (0 : ℚ) < num / den := by
    have hden_pos : (0 : ℚ) < den := by exact_mod_cast hden
    positivity
  have hnum' : 0 < num' := by
    rcases Nat.eq_zero_or_pos num' with rfl | hpos
    · rw [Nat.cast_zero, zero_div] at h
      exact absurd h hv.not_ge
    · exact hpos
  have hfits := fits_exponentFor hnum hden
  have hfits' := fits_exponentFor hnum' hden'
  have hle := hfits.mono hv.le h hfits'
  simp only [nearestMagnitude, if_neg hnum.ne', if_neg hnum'.ne']
  refine min_le_min_left _ ?_
  generalize exponentFor num den = e at *
  generalize exponentFor num' den' = f at *
  rcases hle.eq_or_lt with rfl | hlt
  · have hround : roundHalfEven (scaleDown num den e).1 (scaleDown num den e).2 ≤
        roundHalfEven (scaleDown num' den' e).1 (scaleDown num' den' e).2 := by
      refine roundHalfEven_mono (scaleDown_pos hden e) (scaleDown_pos hden' e) ?_
      rw [scaleDown_div, scaleDown_div]
      gcongr
    simp only [Binary.toMagnitude]
    omega
  · -- a mantissa with the lower exponent is at most twice the least one with the higher exponent
    have htop : roundHalfEven (scaleDown num den e).1 (scaleDown num den e).2 ≤ 2 ^ 53 := by
      refine roundHalfEven_le (scaleDown_pos hden e) ?_
      rw [scaleDown_div]
      exact_mod_cast hfits.lt_top.le
    have hbottom : 2 ^ 52 ≤ roundHalfEven (scaleDown num' den' f).1 (scaleDown num' den' f).2 := by
      refine le_roundHalfEven (scaleDown_pos hden' f) ?_
      rw [scaleDown_div]
      exact_mod_cast hfits'.le_bottom.resolve_left (by have := hfits.least_le; omega)
    have hleast := hfits.least_le
    simp only [Binary.toMagnitude, Binary.leastExponent, leadingBit] at *
    omega

/-! ## Decimals -/

/-- Three bits are less than a digit. -/
theorem two_zpow_le_ten_zpow {k : ℤ} (hk : 0 ≤ k) : (2 : ℚ) ^ (3 * k) ≤ 10 ^ k := by
  rw [zpow_mul]
  exact zpow_le_zpow_left₀ hk (by positivity) (by norm_num)

namespace Binary

theorem exponent_le_of_finite {b : Binary} (hb : b.Canonical)
    (hfinite : b.toMagnitude < infiniteMagnitude) : b.exponent ≤ 971 := by
  have hleast := hb.least_le
  have hmantissa : leadingBit ≤ b.mantissa ∨ b.exponent = leastExponent := hb.le_bottom.symm
  rw [show leadingBit = 2 ^ 52 from rfl] at hmantissa
  rw [show leastExponent = -1074 from rfl] at hleast hmantissa
  simp only [toMagnitude, infiniteMagnitude, show leadingBit = 2 ^ 52 from rfl,
    show leastExponent = -1074 from rfl] at hfinite
  omega

/-- What rounds to a positive finite double lies between two powers of two. -/
theorem Near.bounds {b : Binary} (hb : b.Canonical) (hpos : 0 < b.mantissa)
    (hfinite : b.toMagnitude < infiniteMagnitude) {v : ℚ} (h : b.Near v) :
    2 ^ (-1075 : ℤ) ≤ v ∧ v < 2 ^ (1024 : ℤ) := by
  have hpow : (0 : ℚ) < 2 ^ b.exponent := zpow_pos two_pos _
  have hone : (1 : ℚ) ≤ b.mantissa := by exact_mod_cast hpos
  have htop : (b.mantissa : ℚ) + 1 ≤ 2 ^ 53 := by exact_mod_cast hb.lt_top
  have hlow : (b.mantissa - 1 / 2) * 2 ^ b.exponent ≤ v := (le_div_iff₀ hpow).1 h.low
  have hhigh : v ≤ (b.mantissa + 1 / 2) * 2 ^ b.exponent := (div_le_iff₀ hpow).1 h.high
  constructor
  · calc
      (2 : ℚ) ^ (-1075 : ℤ) = 1 / 2 * 2 ^ leastExponent := by
        rw [show (-1075 : ℤ) = leastExponent - 1 from rfl, zpow_sub_one₀ two_ne_zero]
        ring
      _ ≤ 1 / 2 * 2 ^ b.exponent := by
        gcongr
        · exact one_le_two
        · exact hb.least_le
      _ ≤ (b.mantissa - 1 / 2) * 2 ^ b.exponent := by gcongr; linarith
      _ ≤ v := hlow
  · calc
      v ≤ (b.mantissa + 1 / 2) * 2 ^ b.exponent := hhigh
      _ < 2 ^ 53 * 2 ^ b.exponent := by gcongr; linarith
      _ ≤ 2 ^ 53 * 2 ^ (971 : ℤ) := by
        gcongr
        · exact one_le_two
        · exact exponent_le_of_finite hb hfinite
      _ = 2 ^ (1024 : ℤ) := by
        rw [← zpow_natCast, ← zpow_add₀ two_ne_zero]
        rfl

end Binary

/-- A decimal that rounds to a positive finite double is read as it. The scales that are decided
without a power are out of reach. -/
theorem nearestDecimal_eq {b : Binary} (hb : b.Canonical) (hpos : 0 < b.mantissa)
    (hfinite : b.toMagnitude < infiniteMagnitude) {n : Nat} {scale : ℤ}
    (h : b.Near (n * 10 ^ scale)) : nearestDecimal n scale = b.toMagnitude := by
  obtain ⟨hlow, hhigh⟩ := h.bounds hb hpos hfinite
  have hn : 0 < n := by
    rcases Nat.eq_zero_or_pos n with rfl | hn
    · rw [Nat.cast_zero, zero_mul] at hlow
      exact absurd hlow (not_le.2 (zpow_pos two_pos _))
    · exact hn
  have hwide : ¬ (widestScale : ℤ) < scale := by
    intro hscale
    have hone : (1 : ℚ) ≤ n := by exact_mod_cast hn
    have : (2 : ℚ) ^ (1024 : ℤ) ≤ n * 10 ^ scale :=
      calc (2 : ℚ) ^ (1024 : ℤ) ≤ 2 ^ (3 * 401 : ℤ) :=
            zpow_le_zpow_right₀ one_le_two (by norm_num)
        _ ≤ 10 ^ (401 : ℤ) := two_zpow_le_ten_zpow (by norm_num)
        _ ≤ 10 ^ scale := zpow_le_zpow_right₀ (by norm_num) hscale
        _ ≤ n * 10 ^ scale := le_mul_of_one_le_left (by positivity) hone
    linarith
  have hnarrow : ¬ scale + n.log2 + 1 < -(widestScale : ℤ) := by
    intro hscale
    have hscale' : scale + n.log2 + 1 ≤ -401 := by
      have hwidest : (widestScale : ℤ) = 400 := rfl
      omega
    have hlog : (n : ℚ) < 10 ^ ((n.log2 : ℤ) + 1) :=
      calc (n : ℚ) < 2 ^ (n.log2 + 1) := cast_lt_two_pow_log2 n
        _ ≤ 10 ^ (n.log2 + 1) := by gcongr; norm_num
        _ = 10 ^ ((n.log2 : ℤ) + 1) := by rw [← zpow_natCast, Nat.cast_succ]
    have : (n : ℚ) * 10 ^ scale < 2 ^ (-1075 : ℤ) :=
      calc (n : ℚ) * 10 ^ scale < 10 ^ ((n.log2 : ℤ) + 1) * 10 ^ scale := by gcongr
        _ = 10 ^ (scale + n.log2 + 1) := by
          rw [← zpow_add₀ (by norm_num : (10 : ℚ) ≠ 0)]
          congr 1
          omega
        _ ≤ 10 ^ (-401 : ℤ) := zpow_le_zpow_right₀ (by norm_num) hscale'
        _ ≤ 2 ^ (-(3 * 401) : ℤ) := by
          rw [zpow_neg, zpow_neg]
          exact inv_anti₀ (by positivity) (two_zpow_le_ten_zpow (by norm_num))
        _ < 2 ^ (-1075 : ℤ) := zpow_lt_zpow_right₀ one_lt_two (by norm_num)
    linarith
  have hcast : ((n * Nat.pow 10 scale.toNat : Nat) : ℚ) / (Nat.pow 10 (-scale).toNat : Nat) =
      n * 10 ^ scale := by
    rw [zpow_eq_div (by norm_num) scale]
    push_cast [Nat.pow_eq]
    ring
  rw [nearestDecimal, if_neg hn.ne', if_neg hwide, if_neg hnarrow]
  refine nearestMagnitude_eq hb hfinite ?_ ?_ (by rwa [hcast])
  · simp only [Nat.pow_eq]
    positivity
  · simp only [Nat.pow_eq]
    positivity

end WidgetSkin.Decimal
