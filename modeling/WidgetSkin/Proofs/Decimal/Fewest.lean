import WidgetSkin.Proofs.Decimal.Shortest

/-!
# The search for the shortest decimal

The search goes over grids from coarse to fine. On a grid that is finer than the interval of a
double one of the two neighbours of the double is a hit, and the last grid is that fine for every
finite double. The decimal that is found has no zero at its end, since the grid before would have
held it without the zero; for the same reason it has few digits.

## Main statements

* `Interval.onGrid?_ne_none` — a grid with any point in the interval has a hit.
* `exists_shortest_eq` — the search ends with a hit, after grids without one.
* `shortest_digits_mod_ten` — a shortest decimal has no zero at its end.
* `shortest_digits_lt` — a shortest decimal has eighteen digits at most.
-/

namespace WidgetSkin.Decimal

/-! ## Powers of two and of ten -/

/-- `28 / 93` is above the decimal logarithm of two. -/
theorem two_pow_le_ten_pow {p q : Nat} (h : 28 * p ≤ 93 * q) : 2 ^ p ≤ 10 ^ q := by
  have hpowers : (2 ^ p) ^ 93 ≤ (10 ^ q) ^ 93 :=
    calc (2 ^ p) ^ 93 = (2 ^ 93) ^ p := pow_right_comm ..
      _ ≤ (10 ^ 28) ^ p := Nat.pow_le_pow_left (by norm_num) p
      _ = 10 ^ (28 * p) := (pow_mul ..).symm
      _ ≤ 10 ^ (93 * q) := Nat.pow_le_pow_right (by norm_num) h
      _ = (10 ^ q) ^ 93 := by rw [← pow_mul, mul_comm]
  exact (Nat.pow_le_pow_iff_left (by norm_num)).1 hpowers

/-- `59 / 196` is below the decimal logarithm of two. -/
theorem ten_pow_le_two_pow {p q : Nat} (h : 196 * q ≤ 59 * p) : 10 ^ q ≤ 2 ^ p := by
  have hpowers : (10 ^ q) ^ 59 ≤ (2 ^ p) ^ 59 :=
    calc (10 ^ q) ^ 59 = (10 ^ 59) ^ q := pow_right_comm ..
      _ ≤ (2 ^ 196) ^ q := Nat.pow_le_pow_left (by norm_num) q
      _ = 2 ^ (196 * q) := (pow_mul ..).symm
      _ ≤ 2 ^ (59 * p) := Nat.pow_le_pow_right (by norm_num) h
      _ = (2 ^ p) ^ 59 := by rw [← pow_mul, mul_comm]
  exact (Nat.pow_le_pow_iff_left (by norm_num)).1 hpowers

theorem two_zpow_le_ten_zpow_of {s t : ℤ} (hup : 28 * s ≤ 93 * t) (hdown : 59 * s ≤ 196 * t) :
    (2 : ℚ) ^ s ≤ 10 ^ t := by
  have hnat : 2 ^ s.toNat * 10 ^ (-t).toNat ≤ 10 ^ t.toNat * 2 ^ (-s).toNat := by
    rcases Int.le_total 0 t with ht | ht
    · have hpow : 2 ^ s.toNat ≤ 10 ^ t.toNat := two_pow_le_ten_pow (by omega)
      rw [show (-t).toNat = 0 by omega, pow_zero, mul_one]
      exact hpow.trans (Nat.le_mul_of_pos_right _ (by positivity))
    · have hpow : 10 ^ (-t).toNat ≤ 2 ^ (-s).toNat := ten_pow_le_two_pow (by omega)
      rw [show s.toNat = 0 by omega, pow_zero, one_mul]
      exact hpow.trans (Nat.le_mul_of_pos_left _ (by positivity))
  rw [zpow_eq_div two_ne_zero, zpow_eq_div (by norm_num), div_le_div_iff₀ (by positivity)
    (by positivity)]
  exact_mod_cast hnat

theorem ten_zpow_le_two_zpow_of {s t : ℤ} (hup : 196 * t ≤ 59 * s) (hdown : 93 * t ≤ 28 * s) :
    (10 : ℚ) ^ t ≤ 2 ^ s := by
  have hinv := two_zpow_le_ten_zpow_of (s := -s) (t := -t) (by omega) (by omega)
  rw [zpow_neg, zpow_neg] at hinv
  exact (inv_le_inv₀ (zpow_pos two_pos _) (zpow_pos (by norm_num) _)).1 hinv

/-! ## Grids with a hit -/

namespace Interval

variable {i : Interval} {tie : Tie} {k : ℤ} {m n : Nat}

theorem unitFactor_pos (i : Interval) (k : ℤ) : 0 < i.unitFactor k := by
  simp only [unitFactor, Nat.pow_eq]
  positivity

theorem gridFactor_pos (i : Interval) (k : ℤ) : 0 < i.gridFactor k := by
  simp only [gridFactor, Nat.pow_eq]
  positivity

/-- What lies between a point of the interval and the exact value is in the interval. -/
theorem contains_of_le (hhigh : i.exact < i.high) (hn : i.contains k n = true) (h : n ≤ m)
    (hm : m * i.gridFactor k ≤ i.exact * i.unitFactor k) : i.contains k m = true := by
  have hup : n * i.gridFactor k ≤ m * i.gridFactor k := Nat.mul_le_mul_right _ h
  have htop : i.exact * i.unitFactor k < i.high * i.unitFactor k :=
    Nat.mul_lt_mul_of_pos_right hhigh (i.unitFactor_pos k)
  simp only [contains] at hn ⊢
  split at hn <;> simp_all <;> omega

theorem contains_of_ge (hlow : i.low < i.exact) (hn : i.contains k n = true) (h : m ≤ n)
    (hm : i.exact * i.unitFactor k ≤ m * i.gridFactor k) : i.contains k m = true := by
  have hdown : m * i.gridFactor k ≤ n * i.gridFactor k := Nat.mul_le_mul_right _ h
  have hbottom : i.low * i.unitFactor k < i.exact * i.unitFactor k :=
    Nat.mul_lt_mul_of_pos_right hlow (i.unitFactor_pos k)
  simp only [contains] at hn ⊢
  split at hn <;> simp_all <;> omega

theorem onGrid?_eq_none_iff : i.onGrid? tie k = none ↔
    i.contains k (i.exact * i.unitFactor k / i.gridFactor k) = false ∧
      i.contains k (i.exact * i.unitFactor k / i.gridFactor k + 1) = false := by
  simp only [onGrid?]
  cases i.contains k (i.exact * i.unitFactor k / i.gridFactor k) <;>
    cases i.contains k (i.exact * i.unitFactor k / i.gridFactor k + 1) <;> simp
  split <;> simp

/-- A grid with any point in the interval has a hit: if no other, then the neighbour of the exact
value on the side of the point. -/
theorem onGrid?_ne_none (hlow : i.low < i.exact) (hhigh : i.exact < i.high)
    (h : i.contains k n = true) : i.onGrid? tie k ≠ none := by
  have hbelow := Nat.div_mul_le_self (i.exact * i.unitFactor k) (i.gridFactor k)
  have habove := Nat.lt_div_mul_add (a := i.exact * i.unitFactor k) (i.gridFactor_pos k)
  rw [Ne, onGrid?_eq_none_iff, not_and_or, Bool.not_eq_false, Bool.not_eq_false]
  rcases Nat.lt_or_ge (i.exact * i.unitFactor k / i.gridFactor k) n with hlt | hge
  · exact .inr (contains_of_ge hlow h hlt (by rw [Nat.succ_mul]; exact habove.le))
  · exact .inl (contains_of_le hhigh h hge hbelow)

/-- A grid whose steps are shorter than the upper half of the interval has a hit. -/
theorem onGrid?_ne_none_of_fine (hlow : i.low < i.exact) (hhigh : i.exact < i.high)
    (h : i.gridFactor k + i.exact * i.unitFactor k < i.high * i.unitFactor k) :
    i.onGrid? tie k ≠ none := by
  have hbelow := Nat.div_mul_le_self (i.exact * i.unitFactor k) (i.gridFactor k)
  have habove := Nat.lt_div_mul_add (a := i.exact * i.unitFactor k) (i.gridFactor_pos k)
  have hbottom : i.low * i.unitFactor k < i.exact * i.unitFactor k :=
    Nat.mul_lt_mul_of_pos_right hlow (i.unitFactor_pos k)
  refine onGrid?_ne_none (n := i.exact * i.unitFactor k / i.gridFactor k + 1) hlow hhigh ?_
  rw [← Nat.succ_mul] at habove
  have hinside : i.low * i.unitFactor k < (i.exact * i.unitFactor k / i.gridFactor k + 1) *
      i.gridFactor k ∧ (i.exact * i.unitFactor k / i.gridFactor k + 1) * i.gridFactor k <
      i.high * i.unitFactor k := by
    refine ⟨hbottom.trans habove, ?_⟩
    rw [Nat.succ_mul]
    omega
  simp only [contains]
  split
  · simp [hinside.1.le, hinside.2.le]
  · simp [hinside]

/-- On a grid with steps longer than the exact value, the only possible hit is the first step. -/
theorem eq_one_of_onGrid? (hlow : 0 < i.low)
    (hcoarse : i.exact * i.unitFactor k < i.gridFactor k) (h : i.onGrid? tie k = some n) :
    n = 1 := by
  have hzero : i.contains k 0 = false := by
    have hpos := Nat.mul_pos hlow (i.unitFactor_pos k)
    have hnone : ¬ i.low * i.unitFactor k ≤ 0 := Nat.not_le.2 hpos
    simp [contains, hnone]
  simp only [onGrid?, Nat.div_eq_of_lt hcoarse, hzero] at h
  split at h <;> simp_all

theorem le_of_holds {v : ℚ} (h : i.Holds v) :
    v ≤ i.high * 2 ^ i.exponent := by
  unfold Holds at h
  split at h
  · exact h.2
  · exact h.2.le

/-- A point that is ten times another stands on the next coarser grid as well. -/
theorem contains_ten_mul (i : Interval) (k : ℤ) (n : Nat) :
    i.contains k (10 * n) = i.contains (k + 1) n := by
  rw [Bool.eq_iff_iff, contains_iff, contains_iff, zpow_add_one₀ (by norm_num)]
  push_cast
  rw [mul_comm (10 : ℚ), mul_assoc, mul_comm (10 : ℚ)]

end Interval

/-! ## The search -/

section Search

variable {tie : Tie} {b : Binary}

theorem ofBinary_bounds (hpos : 0 < b.mantissa) :
    0 < (Interval.ofBinary b).low ∧ (Interval.ofBinary b).low < (Interval.ofBinary b).exact ∧
      (Interval.ofBinary b).exact < (Interval.ofBinary b).high := by
  simp only [Interval.ofBinary]
  split <;> omega

/-- The first grid is coarser than the double. -/
theorem top_coarse (hb : b.Canonical) (hpos : 0 < b.mantissa)
    (hfinite : b.toMagnitude < infiniteMagnitude) :
    (Interval.ofBinary b).exact * (Interval.ofBinary b).unitFactor b.topExponent <
      (Interval.ofBinary b).gridFactor b.topExponent := by
  obtain ⟨c, hc, hgrid, hunit⟩ := (Interval.ofBinary b).exists_factor b.topExponent
  have hlog : (b.mantissa : ℚ) < 2 ^ ((b.mantissa.log2 : ℤ) + 1) := by
    have hlt := cast_lt_two_pow_log2 b.mantissa
    exact_mod_cast hlt
  have hleast := hb.least_le
  have hgreatest := Binary.exponent_le_of_finite hb hfinite
  have hbits : b.mantissa.log2 < 53 := (Nat.log2_lt hpos.ne').2 hb.lt_top
  have htop : (2 : ℚ) ^ ((b.mantissa.log2 : ℤ) + 1 + b.exponent) ≤ 10 ^ b.topExponent := by
    simp only [Binary.leastExponent] at hleast
    refine two_zpow_le_ten_zpow_of ?_ ?_ <;> simp only [Binary.topExponent] <;> omega
  have hexact : (((Interval.ofBinary b).exact : Nat) : ℚ) * 2 ^ (Interval.ofBinary b).exponent =
      b.mantissa * 2 ^ b.exponent := by
    simp only [Interval.ofBinary]
    rw [zpow_sub₀ two_ne_zero]
    push_cast
    ring
  have hvalue : (b.mantissa : ℚ) * 2 ^ b.exponent < 10 ^ b.topExponent :=
    calc (b.mantissa : ℚ) * 2 ^ b.exponent
        < 2 ^ ((b.mantissa.log2 : ℤ) + 1) * 2 ^ b.exponent := by gcongr
      _ = 2 ^ ((b.mantissa.log2 : ℤ) + 1 + b.exponent) := (zpow_add₀ two_ne_zero _ _).symm
      _ ≤ 10 ^ b.topExponent := htop
  have hone := hgrid 1
  rw [Nat.one_mul, Nat.cast_one, one_mul] at hone
  have hlt : (((Interval.ofBinary b).exact * (Interval.ofBinary b).unitFactor b.topExponent : Nat)
      : ℚ) < (Interval.ofBinary b).gridFactor b.topExponent := by
    rw [hunit, hexact, hone]
    gcongr
  exact_mod_cast hlt

/-- The last grid is finer than half of the last place of the double. -/
theorem last_fine (hb : b.Canonical) (hpos : 0 < b.mantissa)
    (hfinite : b.toMagnitude < infiniteMagnitude) {k : ℤ} (hk : k = b.topExponent - 20) :
    (Interval.ofBinary b).gridFactor k + (Interval.ofBinary b).exact *
      (Interval.ofBinary b).unitFactor k <
      (Interval.ofBinary b).high * (Interval.ofBinary b).unitFactor k := by
  obtain ⟨c, hc, hgrid, hunit⟩ := (Interval.ofBinary b).exists_factor k
  have hleast := hb.least_le
  have hgreatest := Binary.exponent_le_of_finite hb hfinite
  have hbits : b.mantissa.log2 < 53 := (Nat.log2_lt hpos.ne').2 hb.lt_top
  have hpow : (10 : ℚ) ^ (k + 18) ≤ 2 ^ (b.exponent + 57) := by
    simp only [Binary.leastExponent] at hleast
    refine ten_zpow_le_two_zpow_of ?_ ?_ <;> simp only [hk, Binary.topExponent] <;> omega
  have hfine : (10 : ℚ) ^ k < 2 ^ b.exponent / 2 := by
    rw [zpow_add₀ (by norm_num), zpow_add₀ two_ne_zero] at hpow
    have hexponent : (0 : ℚ) < 2 ^ b.exponent := zpow_pos two_pos _
    norm_num at hpow
    linarith
  have hone := hgrid 1
  rw [Nat.one_mul, Nat.cast_one, one_mul] at hone
  -- two of the quarters that the interval counts in are half of the last place
  have hquarters : ((Interval.ofBinary b).high : ℚ) * 2 ^ (Interval.ofBinary b).exponent =
      (Interval.ofBinary b).exact * 2 ^ (Interval.ofBinary b).exponent + 2 ^ b.exponent / 2 := by
    simp only [Interval.ofBinary]
    rw [zpow_sub₀ two_ne_zero]
    push_cast
    ring
  have hlt : (((Interval.ofBinary b).gridFactor k + (Interval.ofBinary b).exact *
      (Interval.ofBinary b).unitFactor k : Nat) : ℚ) <
      ((Interval.ofBinary b).high * (Interval.ofBinary b).unitFactor k : Nat) := by
    rw [Nat.cast_add, hone, hunit, hunit, hquarters, ← add_mul, add_comm]
    gcongr
  exact_mod_cast hlt

/-- The search ends with a hit, and all grids before it are without one. -/
theorem exists_shortest_eq (tie : Tie) (hb : b.Canonical) (hpos : 0 < b.mantissa)
    (hfinite : b.toMagnitude < infiniteMagnitude) :
    ∃ n step : Nat, shortest tie b = ⟨n, b.topExponent - step⟩ ∧
      (Interval.ofBinary b).onGrid? tie (b.topExponent - step) = some n ∧
      ∀ earlier < step, (Interval.ofBinary b).onGrid? tie (b.topExponent - earlier) = none := by
  obtain ⟨-, hlow, hhigh⟩ := ofBinary_bounds hpos
  simp only [shortest]
  cases hfound : (List.range gridCount).findSome? fun (step : Nat) =>
      ((Interval.ofBinary b).onGrid? tie (b.topExponent - step)).map
        (Scaled.mk · (b.topExponent - step)) with
  | none =>
    have hnone := List.findSome?_eq_none_iff.1 hfound 20 (List.mem_range.2 (by decide))
    exact absurd (Option.map_eq_none_iff.1 hnone)
      (Interval.onGrid?_ne_none_of_fine hlow hhigh (last_fine hb hpos hfinite rfl))
  | some s =>
    obtain ⟨before, step, after, hsteps, hhit, hbefore⟩ := List.findSome?_eq_some_iff.1 hfound
    obtain ⟨n, hn, rfl⟩ := Option.map_eq_some_iff.1 hhit
    refine ⟨n, step, rfl, hn, fun earlier hearlier => ?_⟩
    have hmem : earlier ∈ before := by
      have hsorted := List.pairwise_lt_range (n := gridCount)
      have hrange : step < gridCount := List.mem_range.1 (by rw [hsteps]; simp)
      have hearlier' : earlier ∈ List.range gridCount := List.mem_range.2 (by omega)
      rw [hsteps] at hsorted hearlier'
      grind [List.pairwise_cons]
    exact Option.map_eq_none_iff.1 (hbefore earlier hmem)

/-- A shortest decimal has no zero at its end. -/
theorem shortest_digits_mod_ten (tie : Tie) (hb : b.Canonical) (hpos : 0 < b.mantissa)
    (hfinite : b.toMagnitude < infiniteMagnitude) : (shortest tie b).digits % 10 ≠ 0 := by
  obtain ⟨hzero, hlow, hhigh⟩ := ofBinary_bounds hpos
  obtain ⟨n, step, heq, hhit, hearlier⟩ := exists_shortest_eq tie hb hpos hfinite
  simp only [heq]
  intro hmod
  cases step with
  | zero =>
    rw [Nat.cast_zero, sub_zero] at hhit
    have hone := Interval.eq_one_of_onGrid? hzero (top_coarse hb hpos hfinite) hhit
    omega
  | succ step =>
    -- without the zero the decimal is a hit of the grid before
    obtain ⟨m, rfl⟩ := Nat.dvd_of_mod_eq_zero hmod
    have hcontains := Interval.contains_of_onGrid? hhit
    rw [Interval.contains_ten_mul, Nat.cast_succ, sub_add_eq_sub_sub, sub_add_cancel] at hcontains
    exact Interval.onGrid?_ne_none hlow hhigh hcontains (hearlier step (Nat.lt_succ_self step))

/-- A shortest decimal has eighteen digits at most: the grid before is too coarse for the double. -/
theorem shortest_digits_lt (tie : Tie) (hb : b.Canonical) (hpos : 0 < b.mantissa)
    (hfinite : b.toMagnitude < infiniteMagnitude) : (shortest tie b).digits < 10 ^ 18 := by
  obtain ⟨hzero, hlow, hhigh⟩ := ofBinary_bounds hpos
  obtain ⟨n, step, heq, hhit, hearlier⟩ := exists_shortest_eq tie hb hpos hfinite
  simp only [heq]
  cases step with
  | zero =>
    rw [Nat.cast_zero, sub_zero] at hhit
    rw [Interval.eq_one_of_onGrid? hzero (top_coarse hb hpos hfinite) hhit]
    decide
  | succ step =>
    have hle := Interval.le_of_holds (Interval.contains_iff.1 (Interval.contains_of_onGrid? hhit))
    obtain ⟨c, hc, hgrid, hunit⟩ := (Interval.ofBinary b).exists_factor (b.topExponent - step)
    have hcoarse := mt (Interval.onGrid?_ne_none_of_fine hlow hhigh)
      (not_not.2 (hearlier step (Nat.lt_succ_self step)))
    rw [not_lt, ← Nat.cast_le (α := ℚ), Nat.cast_add, ← one_mul (Interval.gridFactor _ _), hgrid,
      hunit, hunit, ← add_mul, mul_le_mul_iff_left₀ hc] at hcoarse
    have hstep : (10 : ℚ) ^ (b.topExponent - step) =
        10 ^ (b.topExponent - (step + 1 : Nat)) * 10 := by
      rw [← zpow_add_one₀ (by norm_num)]
      congr 1
      omega
    have hmantissa : (b.mantissa : ℚ) + 1 ≤ 2 ^ 53 := by exact_mod_cast hb.lt_top
    have hpow : (0 : ℚ) < 10 ^ (b.topExponent - (step + 1 : Nat)) := zpow_pos (by norm_num) _
    rw [hstep] at hcoarse
    generalize (10 : ℚ) ^ (b.topExponent - (step + 1 : Nat)) = t at *
    have hexact : (((Interval.ofBinary b).exact : Nat) : ℚ) = 4 * b.mantissa := by
      simp [Interval.ofBinary]
    have hends : (((Interval.ofBinary b).high : Nat) : ℚ) = 4 * b.mantissa + 2 := by
      simp [Interval.ofBinary]
    rw [hexact, hends, Nat.cast_one] at hcoarse
    rw [hends] at hle
    generalize (2 : ℚ) ^ (Interval.ofBinary b).exponent = u at *
    have hunits : 2 * u ≤ 10 * t := by linarith
    have hdigits : (n : ℚ) ≤ (2 * b.mantissa + 1) * 10 := by
      refine le_of_mul_le_mul_right ?_ hpow
      calc (n : ℚ) * t ≤ (2 * b.mantissa + 1) * (2 * u) := by linarith
        _ ≤ (2 * b.mantissa + 1) * (10 * t) := by gcongr (2 * (b.mantissa : ℚ) + 1) * ?_
        _ = (2 * b.mantissa + 1) * 10 * t := by ring
    have hlt : (n : ℚ) < 10 ^ 18 := by linarith
    exact_mod_cast hlt

end Search

end WidgetSkin.Decimal
