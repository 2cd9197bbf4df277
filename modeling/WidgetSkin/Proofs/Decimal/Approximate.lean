import WidgetSkin.Decimal.Approximate
import WidgetSkin.Proofs.Decimal.Arithmetic

/-!
# Numerals read in double arithmetic

Whole numbers of up to 53 bits and the powers of ten up to the twenty-second are doubles, so
that a product or a quotient of two of them is rounded only once. A numeral within these bounds
is read as the double nearest to it. Whatever is read is finite.

## Main statements

* `nearestMagnitude_le` — a number up to a double has a nearest double up to that one.
* `nearestMagnitude_lt` — a number up to the greatest double has a finite nearest double.
* `isPositive_whole`, `isPositive_powerOfTen` — what whole numbers and powers of ten are rounded to.
* `Numeral.approximate?_eq` — short numerals are read as the nearest double.
* `Numeral.isFinite_of_approximate?` — what is read is finite.
-/

namespace WidgetSkin.Decimal

namespace Binary

theorem near_value (b : Binary) : b.Near b.value := by
  have hexact : b.value / 2 ^ b.exponent = b.mantissa := by
    rw [value, mul_div_cancel_right₀ _ (zpow_pos two_pos _).ne']
  refine ⟨?_, ?_, ?_, fun _ _ => ?_⟩ <;> rw [hexact]
  · linarith
  · linarith
  · rintro (h | h) <;> linarith
  · linarith

/-- A whole number of up to 53 bits times a power of two is a double. -/
theorem exists_value_eq {n j : Nat} (hpos : 0 < n) (hn : n < 2 ^ 53) (hj : j ≤ 971) :
    ∃ b : Binary, b.Canonical ∧ 0 < b.mantissa ∧ b.toMagnitude < infiniteMagnitude ∧
      b.value = n * 2 ^ j := by
  have hlog : n.log2 < 53 := (Nat.log2_lt hpos.ne').2 hn
  obtain ⟨k, hk⟩ : ∃ k, n.log2 + k = 52 := Nat.le.dest (Nat.le_of_lt_succ hlog)
  have htop : n * 2 ^ k < 2 ^ 53 := by
    calc n * 2 ^ k < 2 ^ (n.log2 + 1) * 2 ^ k := by gcongr; exact Nat.lt_log2_self
      _ = 2 ^ 53 := by rw [← pow_add]; congr 1; omega
  have hbottom : 2 ^ 52 ≤ n * 2 ^ k := by
    calc 2 ^ 52 = 2 ^ n.log2 * 2 ^ k := by rw [← pow_add, hk]
      _ ≤ n * 2 ^ k := by gcongr; exact Nat.log2_self_le hpos.ne'
  refine ⟨⟨n * 2 ^ k, j - k⟩, ⟨?_, htop, .inr hbottom⟩, by positivity, ?_, ?_⟩
  · simp only [leastExponent]
    omega
  · simp only [toMagnitude, infiniteMagnitude, leastExponent, leadingBit]
    omega
  · simp only [value]
    rw [zpow_sub₀ two_ne_zero, zpow_natCast, zpow_natCast]
    push_cast
    field_simp

end Binary

/-! ## Finite outcomes -/

/-- The greatest double. -/
def greatest : ℚ :=
  (2 ^ 53 - 1) * 2 ^ (971 : ℤ)

/-- The greatest double, as a whole number. -/
def greatestWhole : Nat :=
  (2 ^ 53 - 1) * 2 ^ 971

theorem cast_greatestWhole : (greatestWhole : ℚ) = greatest := by
  rw [greatestWhole, greatest, Nat.cast_mul, Nat.cast_pow, ← zpow_natCast]
  norm_num

theorem ten_pow_le_greatestWhole_iff {k : Nat} :
    10 ^ k ≤ greatestWhole ↔ k ≤ Scaled.greatestPower := by
  obtain ⟨hlow, hhigh⟩ : 10 ^ Scaled.greatestPower ≤ greatestWhole ∧
      greatestWhole < 10 ^ (Scaled.greatestPower + 1) := by
    decide +kernel
  refine ⟨fun h => ?_, fun h => (Nat.pow_le_pow_right (by decide) h).trans hlow⟩
  by_contra hk
  have hpower : 10 ^ (Scaled.greatestPower + 1) ≤ 10 ^ k :=
    Nat.pow_le_pow_right (by decide) (Nat.lt_of_not_le hk)
  exact absurd (hhigh.trans_le hpower) h.not_gt

theorem mul_ten_pow_le_greatestWhole {n d k : Nat} (hn : n ≤ 10 ^ d)
    (h : d + k ≤ Scaled.greatestPower) : n * 10 ^ k ≤ greatestWhole :=
  calc n * 10 ^ k ≤ 10 ^ d * 10 ^ k := by gcongr
    _ = 10 ^ (d + k) := (Nat.pow_add ..).symm
    _ ≤ greatestWhole := ten_pow_le_greatestWhole_iff.2 h

theorem two_zpow_le_greatest {k : ℤ} (h : k ≤ 1023) : (2 : ℚ) ^ k ≤ greatest :=
  calc (2 : ℚ) ^ k ≤ 2 ^ (52 + 971 : ℤ) := zpow_le_zpow_right₀ one_le_two h
    _ = 2 ^ 52 * 2 ^ (971 : ℤ) := by
        rw [zpow_add₀ two_ne_zero]
        rfl
    _ ≤ greatest := by
        rw [greatest]
        gcongr
        norm_num

theorem Binary.value_le_greatest {b : Binary} (hb : b.Canonical)
    (hfinite : b.toMagnitude < infiniteMagnitude) : b.value ≤ greatest := by
  have hmantissa : (b.mantissa : ℚ) + 1 ≤ 2 ^ 53 := by exact_mod_cast hb.lt_top
  rw [value, greatest]
  gcongr
  · linarith
  · exact one_le_two
  · exact exponent_le_of_finite hb hfinite

/-- Every positive number is a fraction of whole numbers. -/
theorem exists_fraction {q : ℚ} (h : 0 < q) :
    ∃ num den : Nat, 0 < num ∧ 0 < den ∧ (num : ℚ) / den = q := by
  have hnum : 0 < q.num := Rat.num_pos.2 h
  refine ⟨q.num.toNat, q.den, by omega, q.den_pos, ?_⟩
  have hcast : ((q.num.toNat : Nat) : ℚ) = q.num := by
    exact_mod_cast Int.toNat_of_nonneg hnum.le
  rw [hcast, Rat.num_div_den]

/-- A positive fraction is rounded to the double that it is. -/
theorem Binary.nearestMagnitude_value {b : Binary} (hb : b.Canonical)
    (hfinite : b.toMagnitude < infiniteMagnitude) {num den : Nat} (hnum : 0 < num) (hden : 0 < den)
    (h : (num : ℚ) / den = b.value) : nearestMagnitude num den = b.toMagnitude :=
  nearestMagnitude_eq hb hfinite hnum hden (h ▸ b.near_value)

section Bounds

variable {num den : Nat}

theorem nearestMagnitude_le_infinite (num den : Nat) :
    nearestMagnitude num den ≤ infiniteMagnitude := by
  rw [nearestMagnitude]
  split
  · exact Nat.zero_le _
  · exact min_le_left _ _

theorem nearestMagnitude_lt_of_isFinite
    (h : (ofMagnitude false (nearestMagnitude num den)).isFinite = true) :
    nearestMagnitude num den < infiniteMagnitude := by
  refine lt_of_le_of_ne (nearestMagnitude_le_infinite num den) fun hinfinite => ?_
  rw [hinfinite] at h
  exact absurd h (by decide)

/-- A number up to a double has a nearest double up to it. -/
theorem nearestMagnitude_le {b : Binary} (hb : b.Canonical) (hnum : 0 < num) (hden : 0 < den)
    (h : (num : ℚ) / den ≤ b.value) : nearestMagnitude num den ≤ b.toMagnitude := by
  rcases Nat.lt_or_ge b.toMagnitude infiniteMagnitude with hfinite | hinfinite
  · have hpos : (0 : ℚ) < num / den := by
      have hden_pos : (0 : ℚ) < den := by exact_mod_cast hden
      positivity
    obtain ⟨num', den', hnum', hden', hvalue⟩ := exists_fraction (hpos.trans_le h)
    rw [← b.nearestMagnitude_value hb hfinite hnum' hden' hvalue]
    exact nearestMagnitude_mono hnum hden hden' (hvalue ▸ h)
  · exact (nearestMagnitude_le_infinite num den).trans hinfinite

/-- A number up to the greatest double has a finite nearest double. -/
theorem nearestMagnitude_lt (hnum : 0 < num) (hden : 0 < den) (h : (num : ℚ) / den ≤ greatest) :
    nearestMagnitude num den < infiniteMagnitude := by
  have hcanonical : Binary.Canonical ⟨2 ^ 53 - 1, 971⟩ := ⟨by decide, by decide, .inr (by decide)⟩
  have hgreatest : greatest = Binary.value ⟨2 ^ 53 - 1, 971⟩ := by
    rw [greatest, Binary.value]
    norm_num
  exact (nearestMagnitude_le hcanonical hnum hden (hgreatest ▸ h)).trans_lt (by decide)

/-- A number from one on has a nearest double from one on. -/
theorem le_nearestMagnitude (hden : 0 < den) (h : 1 ≤ (num : ℚ) / den) :
    1023 * leadingBit ≤ nearestMagnitude num den := by
  have hone : nearestMagnitude 1 1 = 1023 * leadingBit := by decide
  rw [← hone]
  exact nearestMagnitude_mono one_pos one_pos hden (by simpa using h)

end Bounds

namespace Scaled

/-! ## Powers of ten -/

/-- The first powers of ten are doubles. -/
theorem powerOfTen_exact {k : Nat} (h : k ≤ 22) :
    ∃ b, IsPositive (powerOfTen k) b ∧ b.value = 10 ^ k := by
  have hfive : 5 ^ k < 2 ^ 53 :=
    (Nat.pow_le_pow_right (by decide) h).trans_lt (by decide : 5 ^ 22 < 2 ^ 53)
  obtain ⟨b, hb, hpos, hfinite, hvalue⟩ :=
    Binary.exists_value_eq (n := 5 ^ k) (j := k) (by positivity) hfive (by omega)
  have hten : b.value = 10 ^ k := by
    rw [hvalue]
    push_cast
    rw [← mul_pow]
    norm_num
  have hnear : b.Near ((1 : Nat) * 10 ^ (k : ℤ)) := by
    rw [zpow_natCast, Nat.cast_one, one_mul, ← hten]
    exact b.near_value
  refine ⟨b, ?_, hten⟩
  rw [powerOfTen, nearestDecimal_eq hb hpos hfinite hnear]
  exact isPositive_ofMagnitude hb hpos hfinite

/-- A whole number of up to 53 bits is its nearest double. -/
theorem isPositive_nearestMagnitude {n : Nat} (hpos : 0 < n) (hn : n < 2 ^ 53) :
    ∃ b, IsPositive (ofMagnitude false (nearestMagnitude n 1)) b ∧ b.value = n := by
  obtain ⟨b, hb, hb', hfinite, hvalue⟩ := Binary.exists_value_eq (j := 0) hpos hn (by omega)
  have hnear : b.Near ((n : ℚ) / (1 : Nat)) := by
    have := b.near_value
    rw [hvalue] at this
    simpa using this
  refine ⟨b, ?_, by simpa using hvalue⟩
  rw [nearestMagnitude_eq hb hfinite hpos one_pos hnear]
  exact isPositive_ofMagnitude hb hb' hfinite

/-! ## Short decimals -/

section Short

variable {n k : Nat}

theorem nearestDecimal_eq_nearestMagnitude (hpos : 0 < n) {e : Int} (he : e.natAbs ≤ 22) :
    nearestDecimal n e = nearestMagnitude (n * 10 ^ e.toNat) (10 ^ (-e).toNat) := by
  have hwide : (widestScale : Int) = 400 := rfl
  rw [nearestDecimal, if_neg hpos.ne', if_neg (by omega), if_neg (by omega)]
  rfl

theorem nearestDecimal_lt (hn : n < 2 ^ 53) {e : Int} (he : e.natAbs ≤ 22) :
    nearestDecimal n e < infiniteMagnitude := by
  rcases Nat.eq_zero_or_pos n with rfl | hpos
  · rw [nearestDecimal, if_pos rfl]
    decide
  · rw [nearestDecimal_eq_nearestMagnitude hpos he]
    refine nearestMagnitude_lt (by positivity) (by positivity) ?_
    have hdigits : n ≤ 10 ^ 16 := hn.le.trans (by decide)
    have hsmall : n * 10 ^ e.toNat ≤ greatestWhole :=
      mul_ten_pow_le_greatestWhole hdigits (by simp only [greatestPower]; omega)
    calc ((n * 10 ^ e.toNat : Nat) : ℚ) / (10 ^ (-e).toNat : Nat)
        ≤ (n * 10 ^ e.toNat : Nat) :=
          div_le_self (Nat.cast_nonneg _) (by exact_mod_cast Nat.one_le_pow' _ _)
      _ ≤ greatestWhole := by exact_mod_cast hsmall
      _ = greatest := cast_greatestWhole

theorem multiply?_eq (hn : n < 2 ^ 53) (hk : k ≤ 22) :
    multiply? (ofMagnitude false (nearestMagnitude n 1)) k =
      some (ofMagnitude false (nearestDecimal n k)) := by
  obtain ⟨p, hp, hvalue⟩ := powerOfTen_exact hk
  have hproduct : ofMagnitude false (nearestMagnitude n 1) * powerOfTen k =
      ofMagnitude false (nearestDecimal n k) := by
    rcases Nat.eq_zero_or_pos n with rfl | hpos
    · rw [nearestDecimal, if_pos rfl, nearestMagnitude, if_pos rfl, hp.zero_mul_eq]
    · obtain ⟨b, hb, hb'⟩ := isPositive_nearestMagnitude hpos hn
      have hexact : ((n * 10 ^ k : Nat) : ℚ) / (1 : Nat) = b.value * p.value := by
        rw [hb', hvalue]
        push_cast
        ring
      rw [hb.mul_eq hp (by positivity) one_pos hexact,
        nearestDecimal_eq_nearestMagnitude hpos (by omega)]
      simp
  have hgreatest : k ≤ greatestPower := hk.trans (by decide)
  simp only [multiply?, if_pos hgreatest]
  rw [hproduct, if_pos (isFinite_ofMagnitude _ (nearestDecimal_lt hn (by omega)))]

theorem divide_eq (hn : n < 2 ^ 53) (hk : k ≤ 22) :
    divide (ofMagnitude false (nearestMagnitude n 1)) k =
      ofMagnitude false (nearestDecimal n (-k)) := by
  obtain ⟨p, hp, hvalue⟩ := powerOfTen_exact hk
  have hgreatest : k ≤ greatestPower := hk.trans (by decide)
  rw [divide, if_pos hgreatest]
  rcases Nat.eq_zero_or_pos n with rfl | hpos
  · rw [nearestDecimal, if_pos rfl, nearestMagnitude, if_pos rfl, hp.zero_div_eq]
  · obtain ⟨b, hb, hb'⟩ := isPositive_nearestMagnitude hpos hn
    have hquotient : (n : ℚ) / (10 ^ k : Nat) = b.value / p.value := by
      rw [hb', hvalue]
      push_cast
      rfl
    rw [hb.div_eq hp hpos (by positivity) hquotient,
      nearestDecimal_eq_nearestMagnitude hpos (by omega)]
    simp

end Short

theorem toFloat?_eq {s : Scaled} (hdigits : s.digits < 2 ^ 53)
    (hexponent : s.exponent.natAbs ≤ 22) :
    s.toFloat? = some (ofMagnitude false (nearestDecimal s.digits s.exponent)) := by
  obtain ⟨n, e⟩ := s
  dsimp only at hdigits hexponent
  simp only [toFloat?]
  split
  · next h =>
    obtain ⟨k, rfl⟩ := Int.eq_ofNat_of_zero_le h
    exact multiply?_eq hdigits hexponent
  · next h =>
    obtain ⟨k, rfl⟩ := Int.eq_negSucc_of_lt_zero (Int.not_le.1 h)
    rw [divide_eq hdigits hexponent]
    rfl

end Scaled

/-! ## Whatever is read -/

namespace Scaled

/-- The double is finite and has no sign. -/
def IsUnsigned (x : Float) : Prop :=
  ∃ m < infiniteMagnitude, x = ofMagnitude false m

theorem one_le_value_ofMagnitude {m : Nat} (h : 1023 * leadingBit ≤ m) :
    1 ≤ (Binary.ofMagnitude m).value := by
  have hexponent : 1023 ≤ m / leadingBit := (Nat.le_div_iff_mul_le (by decide)).2 h
  simp only [Binary.ofMagnitude, Binary.value, if_neg (by omega : ¬ m / leadingBit = 0)]
  calc (1 : ℚ) = 2 ^ (52 : ℤ) * 2 ^ (-52 : ℤ) := by norm_num
    _ ≤ (leadingBit + m % leadingBit : Nat) *
        2 ^ (((m / leadingBit : Nat) : ℤ) - 1 + Binary.leastExponent) := by
      gcongr
      · have : 2 ^ 52 ≤ leadingBit + m % leadingBit := Nat.le_add_right _ _
        exact_mod_cast this
      · exact one_le_two
      · simp only [Binary.leastExponent]
        omega

/-- A whole number up to the greatest double is rounded to a positive double. -/
theorem isPositive_whole {n : Nat} (hpos : 0 < n) (hn : n ≤ greatestWhole) :
    IsPositive (ofMagnitude false (nearestMagnitude n 1))
      (.ofMagnitude (nearestMagnitude n 1)) := by
  have hlow : 1023 * leadingBit ≤ nearestMagnitude n 1 := by
    refine le_nearestMagnitude one_pos ?_
    rw [Nat.cast_one, div_one]
    exact_mod_cast hpos
  refine isPositive_of_ne_zero ?_ (nearestMagnitude_lt hpos one_pos ?_)
  · rintro hzero
    rw [hzero] at hlow
    exact absurd hlow (by decide)
  · rw [← cast_greatestWhole, Nat.cast_one, div_one]
    exact_mod_cast hn

/-- A power of ten is rounded to a positive double. -/
theorem isPositive_powerOfTen {k : Nat} (hk : k ≤ greatestPower) :
    IsPositive (powerOfTen k) (.ofMagnitude (nearestMagnitude (10 ^ k) 1)) := by
  have hnearest : nearestDecimal 1 k = nearestMagnitude (10 ^ k) 1 := by
    have hwide : (widestScale : Int) = 400 := rfl
    rw [greatestPower] at hk
    rw [nearestDecimal, if_neg one_ne_zero, if_neg (by omega), if_neg (by omega)]
    simp
  rw [powerOfTen, hnearest]
  exact isPositive_whole (by positivity) (ten_pow_le_greatestWhole_iff.2 hk)

theorem one_le_powerOfTen {k : Nat} (hk : k ≤ greatestPower) :
    ∃ b, IsPositive (powerOfTen k) b ∧ 1 ≤ b.value := by
  refine ⟨_, isPositive_powerOfTen hk, one_le_value_ofMagnitude (le_nearestMagnitude one_pos ?_)⟩
  rw [Nat.cast_one, div_one]
  exact_mod_cast Nat.one_le_pow' _ _

variable {x y : Float} {places : Nat}

/-- A finite double divided by one from one on is finite. -/
theorem isUnsigned_div_of_one_le {c : Binary} (hx : IsUnsigned x) (hy : IsPositive y c)
    (hone : 1 ≤ c.value) : IsUnsigned (x / y) := by
  obtain ⟨m, hfinite, rfl⟩ := hx
  by_cases hzero : m = 0
  · rw [hzero, hy.zero_div_eq]
    exact ⟨0, by decide, rfl⟩
  · have hb := isPositive_of_ne_zero hzero hfinite
    have hpos := Binary.value_pos hb.pos
    obtain ⟨num, den, hnum, hden, hquotient⟩ :=
      exists_fraction (div_pos hpos (Binary.value_pos hy.pos))
    refine ⟨_, nearestMagnitude_lt hnum hden ?_, hb.div_eq hy hnum hden hquotient⟩
    rw [← Binary.toMagnitude_ofMagnitude m] at hfinite
    calc (num : ℚ) / den = (Binary.ofMagnitude m).value / c.value := hquotient
      _ ≤ (Binary.ofMagnitude m).value := div_le_self hpos.le hone
      _ ≤ greatest := Binary.value_le_greatest hb.canonical hfinite

theorem isUnsigned_div (hx : IsUnsigned x) (hplaces : places ≤ greatestPower) :
    IsUnsigned (x / powerOfTen places) := by
  obtain ⟨p, hp, hone⟩ := one_le_powerOfTen hplaces
  exact isUnsigned_div_of_one_le hx hp hone

theorem isUnsigned_divide (hx : IsUnsigned x) (places : Nat) : IsUnsigned (divide x places) := by
  fun_induction divide x places with
  | case1 x places h => exact isUnsigned_div hx h
  | case2 => exact hx
  | case3 x places h hne ih => exact ih (isUnsigned_div hx le_rfl)

theorem isUnsigned_mul (hx : IsUnsigned x) (hplaces : places ≤ greatestPower)
    (hfinite : (x * powerOfTen places).isFinite = true) : IsUnsigned (x * powerOfTen places) := by
  obtain ⟨p, hp, -⟩ := one_le_powerOfTen hplaces
  obtain ⟨m, hm, rfl⟩ := hx
  by_cases hzero : m = 0
  · rw [hzero, hp.zero_mul_eq]
    exact ⟨0, by decide, rfl⟩
  · have hb := isPositive_of_ne_zero hzero hm
    obtain ⟨num, den, hnum, hden, hproduct⟩ :=
      exists_fraction (mul_pos (Binary.value_pos hb.pos) (Binary.value_pos hp.pos))
    rw [hb.mul_eq hp hnum hden hproduct] at hfinite ⊢
    exact ⟨_, nearestMagnitude_lt_of_isFinite hfinite, rfl⟩

theorem isUnsigned_multiply? (hx : IsUnsigned x) (h : multiply? x places = some y) :
    IsUnsigned y := by
  simp only [multiply?] at h
  split at h
  · next hplaces =>
    split at h
    · next hfinite =>
      cases h
      exact isUnsigned_mul hx hplaces hfinite
    · cases h
  · split at h
    · cases h
      exact hx
    · cases h

theorem isUnsigned_toFloat? {s : Scaled} (hdigits : s.digits < UInt64.size)
    (h : s.toFloat? = some x) : IsUnsigned x := by
  have hstart : IsUnsigned (ofMagnitude false (nearestMagnitude s.digits 1)) := by
    refine ⟨_, ?_, rfl⟩
    rcases Nat.eq_zero_or_pos s.digits with hzero | hpos
    · rw [hzero]
      decide
    · refine nearestMagnitude_lt hpos one_pos ?_
      calc (s.digits : ℚ) / (1 : Nat) = s.digits := by rw [Nat.cast_one, div_one]
        _ ≤ UInt64.size := by exact_mod_cast hdigits.le
        _ = 2 ^ (64 : ℤ) := by norm_num [UInt64.size]
        _ ≤ greatest := two_zpow_le_greatest (by decide)
  simp only [toFloat?] at h
  split at h
  · exact isUnsigned_multiply? hstart h
  · cases h
    exact isUnsigned_divide hstart _

end Scaled

/-! ## Numerals -/

theorem le_ofDigits (high : Nat) (ds : List Digit) : high ≤ ofDigits high ds := by
  induction ds generalizing high with
  | nil => exact le_refl _
  | cons d ds ih => exact (by omega : high ≤ 10 * high + d.val).trans (ih _)

theorem takeDigits_eq {high : Nat} {ds : List Digit} (h : ofDigits high ds < UInt64.size) :
    takeDigits high ds = (ofDigits high ds, ds.length) := by
  induction ds generalizing high with
  | nil => rfl
  | cons d ds ih =>
    have hnext : 10 * high + d.val < UInt64.size := (le_ofDigits _ ds).trans_lt h
    rw [takeDigits, if_pos hnext, ih h]
    rfl

theorem Scaled.ofNumeral_eq {n : Numeral} (h : n.coefficient < UInt64.size) :
    ofNumeral n = ⟨n.coefficient, n.scale⟩ := by
  have hwhole : leadingDigits n.whole = (n.whole, 0) := by
    rw [leadingDigits, if_pos ((le_ofDigits _ _).trans_lt h)]
  simp only [ofNumeral, hwhole, takeDigits_eq h, Numeral.scale, Numeral.coefficient]
  congr 1
  omega

namespace Numeral

/-- A numeral of up to 53 bits with a small power of ten is read as the nearest double. -/
theorem approximate?_eq {n : Numeral} (hcoefficient : n.coefficient < 2 ^ 53)
    (hscale : n.scale.natAbs ≤ 22) : n.approximate? = some n.toFloat := by
  have hsize : n.coefficient < UInt64.size := hcoefficient.trans (by decide)
  rw [approximate?, Scaled.ofNumeral_eq hsize, Scaled.toFloat?_eq hcoefficient hscale, toFloat]
  cases hsign : n.negative with
  | false => rfl
  | true => simp [neg_ofMagnitude (Scaled.nearestDecimal_lt hcoefficient hscale)]

/-- Whatever is read is finite. -/
theorem isFinite_of_approximate? {n : Numeral} {x : Float} (h : n.approximate? = some x) :
    x.isFinite = true := by
  obtain ⟨y, hy, rfl⟩ := Option.map_eq_some_iff.1 h
  obtain ⟨m, hm, rfl⟩ := Scaled.isUnsigned_toFloat? (Scaled.digits_ofNumeral_lt n) hy
  split
  · rw [neg_ofMagnitude hm]
    exact isFinite_ofMagnitude true hm
  · exact isFinite_ofMagnitude false hm

end Numeral

end WidgetSkin.Decimal
