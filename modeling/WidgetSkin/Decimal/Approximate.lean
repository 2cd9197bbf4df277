import WidgetSkin.Decimal.Binary

/-!
# Numerals read in double arithmetic

The number that a data file holds for a numeral. The leading digits of the numeral, as many as
64 bits hold, make a coefficient; it is rounded to a double and then multiplied or divided by
a power of ten in double arithmetic. Up to fifteen digits with a small exponent the outcome is
the nearest double; otherwise it may be a neighbour of it.

## Main definitions

* `Scaled.ofNumeral` — the coefficient and the power of ten that are kept of a numeral.
* `Scaled.toFloat?` — their product in double arithmetic, unless it leaves the range of
  doubles.
* `Numeral.approximate?` — the number that a data file holds for a numeral.
-/

namespace WidgetSkin.Decimal

/-! ## What is kept -/

/-- The leading digits of `n`, as many as 64 bits hold, and how many are left over. -/
def leadingDigits (n : Nat) : Nat × Nat :=
  if n < UInt64.size then (n, 0)
  else
    let (leading, left) := leadingDigits (n / 10)
    (leading, left + 1)
termination_by n
decreasing_by simp only [UInt64.size] at *; omega

/-- A coefficient continued by digits up to the first that 64 bits do not hold, and how many
digits are taken. -/
def takeDigits (coefficient : Nat) : List Digit → Nat × Nat
  | [] => (coefficient, 0)
  | d :: ds =>
    let next := 10 * coefficient + d.val
    if next < UInt64.size then
      let (coefficient, taken) := takeDigits next ds
      (coefficient, taken + 1)
    else (coefficient, 0)

theorem leadingDigits_lt (n : Nat) : (leadingDigits n).1 < UInt64.size := by
  fun_induction leadingDigits n with
  | case1 n h => exact h
  | case2 n h leading left eq ih => simpa [eq] using ih

theorem takeDigits_lt {coefficient : Nat} (h : coefficient < UInt64.size) (ds : List Digit) :
    (takeDigits coefficient ds).1 < UInt64.size := by
  fun_induction takeDigits coefficient ds with
  | case1 => exact h
  | case2 coefficient d ds next hnext found taken eq ih => simpa [eq] using ih hnext
  | case3 => exact h

namespace Scaled

/-- What is kept of a numeral without its sign: the digits in front of the point as far as they
go, each one left over counting as a zero; then the digits behind it as far as they go. -/
def ofNumeral (n : Numeral) : Scaled :=
  let (whole, zeros) := leadingDigits n.whole
  let (digits, places) := takeDigits whole n.fraction
  ⟨digits, n.exponent.getD 0 + zeros - places⟩

/-- What is kept of a numeral fits 64 bits. -/
theorem digits_ofNumeral_lt (n : Numeral) : (ofNumeral n).digits < UInt64.size :=
  takeDigits_lt (leadingDigits_lt n.whole) n.fraction

/-! ## Its value -/

/-- The exponent of the greatest power of ten that is a double. -/
def greatestPower : Nat := 308

/-- The double nearest to `10 ^ k`. -/
def powerOfTen (k : Nat) : Float :=
  ofMagnitude false (nearestDecimal 1 k)

/-- `x` divided by `10 ^ places`, by one power of ten after the other until nothing is left. -/
def divide (x : Float) (places : Nat) : Float :=
  if places ≤ greatestPower then x / powerOfTen places
  else if x == 0 then x
  else divide (x / powerOfTen greatestPower) (places - greatestPower)
termination_by places
decreasing_by simp only [greatestPower] at *; omega

/-- `x` multiplied by `10 ^ places`, unless the power or the product leaves the range of
doubles; a zero stays what it is. -/
def multiply? (x : Float) (places : Nat) : Option Float :=
  if places ≤ greatestPower then
    let product := x * powerOfTen places
    if product.isFinite then some product else none
  else if x == 0 then some x
  else none

/-- The value in double arithmetic. -/
def toFloat? (s : Scaled) : Option Float :=
  let x := ofMagnitude false (nearestMagnitude s.digits 1)
  if 0 ≤ s.exponent then multiply? x s.exponent.toNat
  else some (divide x s.exponent.natAbs)

end Scaled

/-- The number that a data file holds for a numeral. -/
def Numeral.approximate? (n : Numeral) : Option Float :=
  (Scaled.ofNumeral n).toFloat?.map fun x => if n.negative then -x else x

end WidgetSkin.Decimal
