import WidgetSkin.Decimal.Style
import WidgetSkin.Proofs.Decimal.Double
import WidgetSkin.Proofs.Decimal.Nearest

/-!
# Shortest decimals read back

A shortest decimal lies in the interval of its double, wherever the search ends. The numeral
that is written for it has its value in every style, so that the nearest double of the numeral
is the double that was written.

## Main definitions

* `Interval.Holds` — the interval as a set of numbers.
* `Scaled.value`, `Numeral.value` — the numbers that decimals and numerals without sign stand for.

## Main statements

* `shortest_near` — the shortest decimal rounds to its double.
* `Style.toFloat_numeral` — the nearest double of a written numeral.
-/

namespace WidgetSkin.Decimal

/-! ## Intervals -/

namespace Interval

/-- The number `v` lies in the interval. -/
def Holds (i : Interval) (v : ℚ) : Prop :=
  if i.closed then i.low * 2 ^ i.exponent ≤ v ∧ v ≤ i.high * 2 ^ i.exponent
  else i.low * 2 ^ i.exponent < v ∧ v < i.high * 2 ^ i.exponent

variable {i : Interval} {k : ℤ} {n : Nat}

/-- One positive factor turns steps of the grid and units into whole numbers. -/
theorem exists_factor (i : Interval) (k : ℤ) :
    ∃ c : ℚ, 0 < c ∧ (∀ n : Nat, ((n * i.gridFactor k : Nat) : ℚ) = n * 10 ^ k * c) ∧
      ∀ x : Nat, ((x * i.unitFactor k : Nat) : ℚ) = x * 2 ^ i.exponent * c := by
  refine ⟨10 ^ (-k).toNat * 2 ^ (-i.exponent).toNat, by positivity, fun n => ?_, fun x => ?_⟩
  · rw [zpow_eq_div (by norm_num) k]
    push_cast [gridFactor, Nat.pow_eq]
    field_simp
  · rw [zpow_eq_div two_ne_zero i.exponent]
    push_cast [unitFactor, Nat.pow_eq]
    field_simp

theorem contains_iff : i.contains k n = true ↔ i.Holds (n * 10 ^ k) := by
  obtain ⟨c, hc, hgrid, hunit⟩ := exists_factor i k
  have hle : ∀ x : Nat, (x * i.unitFactor k ≤ n * i.gridFactor k ↔
      x * 2 ^ i.exponent ≤ (n : ℚ) * 10 ^ k) ∧
      (n * i.gridFactor k ≤ x * i.unitFactor k ↔
      (n : ℚ) * 10 ^ k ≤ x * 2 ^ i.exponent) := by
    intro x
    constructor <;> rw [← Nat.cast_le (α := ℚ), hgrid, hunit, mul_le_mul_iff_left₀ hc]
  simp only [contains, Holds]
  split
  · simp [(hle _).1, (hle _).2]
  · simp [← not_le, (hle _).1, (hle _).2]

theorem contains_of_onGrid? {tie : Tie} (h : i.onGrid? tie k = some n) :
    i.contains k n = true := by
  simp only [onGrid?] at h
  split at h
  · next hbelow habove =>
    split at h <;> cases h
    · exact hbelow
    · exact habove
  · next hbelow _ => cases h; exact hbelow
  · next _ habove => cases h; exact habove
  · cases h

/-- What lies in the interval of a positive double rounds to it. -/
theorem near_of_holds {b : Binary} (hpos : 0 < b.mantissa) {v : ℚ} (h : (ofBinary b).Holds v) :
    b.Near v := by
  have hpow : (0 : ℚ) < 2 ^ b.exponent := zpow_pos two_pos _
  obtain ⟨w, hw⟩ : ∃ w, v = w * 2 ^ b.exponent := ⟨v / 2 ^ b.exponent, by field_simp⟩
  have hdiv : v / 2 ^ b.exponent = w := by rw [hw, mul_div_assoc, div_self hpow.ne', mul_one]
  -- a unit of the interval is a quarter of the last place
  have hunit : ∀ x : ℚ, x * 2 ^ (b.exponent - 2) = x / 4 * 2 ^ b.exponent := by
    intro x
    rw [zpow_sub₀ two_ne_zero]
    norm_num
    ring
  have hlow : ((4 * b.mantissa - 2 : Nat) : ℚ) = 4 * b.mantissa - 2 := by
    rw [Nat.cast_sub (by omega)]
    push_cast
    ring
  have hlow_boundary : ((4 * b.mantissa - 1 : Nat) : ℚ) = 4 * b.mantissa - 1 := by
    rw [Nat.cast_sub (by omega)]
    push_cast
    ring
  have hends : ((ofBinary b).low : ℚ) / 4 ≤ w ∧ w ≤ b.mantissa + 1 / 2 ∧
      (b.mantissa % 2 ≠ 0 → ((ofBinary b).low : ℚ) / 4 < w ∧ w < b.mantissa + 1 / 2) := by
    have hhigh : (((ofBinary b).high : Nat) : ℚ) / 4 = b.mantissa + 1 / 2 := by
      simp only [ofBinary]
      push_cast
      ring
    have hexponent : (ofBinary b).exponent = b.exponent - 2 := rfl
    simp only [Holds, hexponent, hunit, hw, mul_le_mul_iff_left₀ hpow,
      mul_lt_mul_iff_left₀ hpow, hhigh] at h
    split at h
    · next hclosed =>
      have heven : b.mantissa % 2 = 0 := of_decide_eq_true hclosed
      exact ⟨h.1, h.2, fun hodd => absurd heven hodd⟩
    · exact ⟨h.1.le, h.2.le, fun _ => h⟩
  have hhalf : (b.mantissa : ℚ) - 1 / 2 ≤ (ofBinary b).low / 4 := by
    simp only [ofBinary]
    split
    · rw [hlow_boundary]
      linarith
    · rw [hlow]
      linarith
  obtain ⟨hge, hle, hodd⟩ := hends
  refine ⟨?_, ?_, ?_, ?_⟩ <;> rw [hdiv]
  · linarith
  · exact hle
  · rintro (htie | htie) <;> by_contra h'
    · linarith [(hodd h').1]
    · linarith [(hodd h').2]
  · intro hmantissa hleast
    have hquarter : ((ofBinary b).low : ℚ) / 4 = b.mantissa - 1 / 4 := by
      simp only [ofBinary]
      rw [if_pos ⟨hmantissa, hleast⟩, hlow_boundary]
      ring
    linarith

theorem holds_exact (b : Binary) (hpos : 0 < b.mantissa) :
    (ofBinary b).Holds (b.mantissa * 2 ^ b.exponent) := by
  have hpow : (0 : ℚ) < 2 ^ (b.exponent - 2) := zpow_pos two_pos _
  have hexact : (b.mantissa : ℚ) * 2 ^ b.exponent =
      (4 * b.mantissa : Nat) * 2 ^ (b.exponent - 2) := by
    rw [zpow_sub₀ two_ne_zero]
    push_cast
    ring
  have hlow : (ofBinary b).low < 4 * b.mantissa := by
    simp only [ofBinary]
    split <;> omega
  have hhigh : 4 * b.mantissa < (ofBinary b).high := by
    simp only [ofBinary]
    omega
  have hexponent : (ofBinary b).exponent = b.exponent - 2 := rfl
  simp only [Holds, hexact, hexponent, mul_le_mul_iff_left₀ hpow, mul_lt_mul_iff_left₀ hpow,
    Nat.cast_le, Nat.cast_lt]
  split
  · exact ⟨hlow.le, hhigh.le⟩
  · exact ⟨hlow, hhigh⟩

end Interval

/-! ## The shortest decimal -/

/-- The number that a decimal stands for. -/
def Scaled.value (s : Scaled) : ℚ :=
  s.digits * 10 ^ s.exponent

theorem Binary.value_toScaled (b : Binary) :
    b.toScaled.value = b.mantissa * 2 ^ b.exponent := by
  simp only [toScaled, Scaled.value]
  split
  · next h =>
    obtain ⟨n, hn⟩ := Int.eq_ofNat_of_zero_le h
    simp [hn]
  · next h =>
    obtain ⟨n, hn⟩ : ∃ n : Nat, b.exponent = -n := ⟨b.exponent.natAbs, by omega⟩
    have hten : (10 : ℚ) ^ n = 5 ^ n * 2 ^ n := by
      rw [← mul_pow]
      norm_num
    simp only [hn, Int.natAbs_neg, Int.natAbs_natCast, Nat.pow_eq, zpow_neg, zpow_natCast, hten]
    push_cast
    field_simp

/-- The shortest decimal of a positive double rounds to it. -/
theorem shortest_near (tie : Tie) {b : Binary} (hpos : 0 < b.mantissa) :
    b.Near (shortest tie b).value := by
  apply Interval.near_of_holds hpos
  simp only [shortest]
  cases hfound : (List.range gridCount).findSome? _ with
  | none =>
    rw [Option.getD_none, Binary.value_toScaled]
    exact Interval.holds_exact b hpos
  | some s =>
    obtain ⟨step, -, hstep⟩ := List.exists_of_findSome?_eq_some hfound
    obtain ⟨n, hn, rfl⟩ := Option.map_eq_some_iff.1 hstep
    exact Interval.contains_iff.1 (Interval.contains_of_onGrid? hn)

/-! ## Written numerals -/

/-- The number that a numeral without its sign stands for. -/
def Numeral.value (n : Numeral) : ℚ :=
  n.coefficient * 10 ^ n.scale

namespace Style

theorem value_positionalNumeral (style : Style) (negative : Bool) (s : Scaled) :
    (style.positionalNumeral negative s).value = s.value := by
  simp only [positionalNumeral, Numeral.value, Scaled.value]
  split
  · next h =>
    obtain ⟨n, hn⟩ := Int.eq_ofNat_of_zero_le h
    cases style.pointZero
    · simp [Numeral.coefficient, Numeral.scale, ofDigits, hn]
    · simp [Numeral.coefficient, Numeral.scale, ofDigits, lowDigits, hn]
      ring
  · next h =>
    simp only [Numeral.coefficient, Numeral.scale, ofDigits_lowDigits, length_lowDigits]
    congr 2
    rw [Option.getD_none]
    omega

theorem value_scientificNumeral (negative : Bool) (s : Scaled) :
    (scientificNumeral negative s).value = s.value := by
  simp only [scientificNumeral, Numeral.value, Scaled.value, Numeral.coefficient, Numeral.scale,
    ofDigits_lowDigits, length_lowDigits]
  congr 2
  simp

theorem value_numeralOf (style : Style) (negative : Bool) (s : Scaled) :
    (style.numeralOf negative s).value = s.value := by
  simp only [numeralOf]
  split
  · exact value_positionalNumeral style negative s
  · exact value_scientificNumeral negative s

theorem negative_numeral (style : Style) (x : Float) :
    (style.numeral x).negative = isNegative x := by
  simp only [numeral, numeralOf, positionalNumeral, scientificNumeral]
  split <;> (try split) <;> (try split) <;> rfl

/-- The nearest double of a written numeral is the double that was written. -/
theorem toFloat_numeral (style : Style) {x : Float} (hfinite : x.isFinite = true) :
    (style.numeral x).toFloat = x := by
  have hmagnitude : nearestDecimal (style.numeral x).coefficient (style.numeral x).scale =
      magnitude x := by
    by_cases hzero : magnitude x = 0
    · have hcoefficient : (style.numeral x).coefficient = 0 := by
        have hvalue := value_positionalNumeral style (isNegative x) ⟨0, 0⟩
        simp only [numeral, if_pos hzero]
        simp only [Numeral.value, Scaled.value, Nat.cast_zero, zero_mul, mul_eq_zero,
          Nat.cast_eq_zero] at hvalue
        exact hvalue.resolve_right (zpow_ne_zero _ (by norm_num))
      rw [hcoefficient, hzero, nearestDecimal, if_pos rfl]
    · have hpos := Binary.mantissa_ofMagnitude_pos hzero
      have hnear := shortest_near style.tie hpos
      rw [← value_numeralOf style (isNegative x)] at hnear
      have hlt := (isFinite_iff_magnitude x).1 hfinite
      rw [← Binary.toMagnitude_ofMagnitude (magnitude x)] at hlt
      simp only [numeral, if_neg hzero]
      rw [nearestDecimal_eq (Binary.canonical_ofMagnitude _) hpos hlt hnear,
        Binary.toMagnitude_ofMagnitude]
  rw [Numeral.toFloat, hmagnitude, negative_numeral, ofMagnitude_magnitude]

end Style

end WidgetSkin.Decimal
