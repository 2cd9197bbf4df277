import WidgetSkin.Decimal.Numeral

/-!
# Doubles as exact numbers

A finite double without its sign is a mantissa times a power of two, and every positive
fraction has a nearest double. Both directions work on the *magnitude* of a double: its bits
without the sign bit, a natural number that grows with the double.

## Main definitions

* `Binary` — a mantissa and the exponent of two that it is multiplied by.
* `Binary.ofMagnitude` — the exact value of a finite double.
* `nearestMagnitude` — the double nearest to a fraction, a tie going to the even mantissa.
* `Numeral.toFloat` — the double nearest to a numeral.
-/

namespace WidgetSkin.Decimal

/-! ## Magnitudes -/

/-- The weight of the sign bit, `2 ^ 63`. -/
def signBit : Nat := 0x8000000000000000

/-- The weight of the leading bit of a mantissa, `2 ^ 52`, which the bits of a double leave
out. -/
def leadingBit : Nat := 0x10000000000000

/-- The bits of `x` without the sign bit. -/
def magnitude (x : Float) : Nat :=
  x.toBits.toNat % signBit

/-- Whether the sign bit of `x` is set. -/
def isNegative (x : Float) : Bool :=
  signBit ≤ x.toBits.toNat

/-- The magnitude of the infinities. -/
def infiniteMagnitude : Nat := 2047 * leadingBit

/-- The double with a given sign and magnitude. -/
def ofMagnitude (negative : Bool) (magnitude : Nat) : Float :=
  .ofBits (.ofNat ((if negative then signBit else 0) + magnitude))

/-- The value `mantissa * 2 ^ exponent`. -/
structure Binary where
  /-- The integer factor. -/
  mantissa : Nat
  /-- The power of two. -/
  exponent : Int
deriving DecidableEq

namespace Binary

/-- The exponent of the smallest doubles. -/
def leastExponent : Int := -1074

/-- The exact value of a finite magnitude. -/
def ofMagnitude (magnitude : Nat) : Binary :=
  let exponent : Nat := magnitude / leadingBit
  let fraction : Nat := magnitude % leadingBit
  if exponent = 0 then ⟨fraction, leastExponent⟩
  else ⟨leadingBit + fraction, exponent - 1 + leastExponent⟩

/-- The magnitude of a value whose mantissa and exponent are those of a double. -/
def toMagnitude (b : Binary) : Nat :=
  (b.exponent - leastExponent).toNat * leadingBit + b.mantissa

/-- The integer nearest to the value, a half going up. -/
def roundHalfUp (b : Binary) : Nat :=
  if 0 ≤ b.exponent then b.mantissa * Nat.pow 2 b.exponent.toNat
  else
    let unit := Nat.pow 2 b.exponent.natAbs
    (2 * b.mantissa + unit) / (2 * unit)

end Binary

/-! ## The nearest double -/

/-- The integer nearest to `num / den`, a half going to the even one. -/
def roundHalfEven (num den : Nat) : Nat :=
  let low := num / den
  let rest := 2 * (num % den)
  if rest < den ∨ (rest = den ∧ low % 2 = 0) then low else low + 1

/-- Numerator and denominator of `num / den` divided by `2 ^ e`. -/
def scaleDown (num den : Nat) (e : Int) : Nat × Nat :=
  (num * Nat.pow 2 (-e).toNat, den * Nat.pow 2 e.toNat)

/-- The exponent of two with which `num / den` has a mantissa of 53 bits, or the least one. -/
def exponentFor (num den : Nat) : Int :=
  let e := max Binary.leastExponent ((num.log2 : Int) - den.log2 - 53)
  let (n, d) := scaleDown num den e
  if n / d < 2 * leadingBit then e else e + 1

/-- The magnitude of the double nearest to `num / den`. -/
def nearestMagnitude (num den : Nat) : Nat :=
  if num = 0 then 0
  else
    let e := exponentFor num den
    let (n, d) := scaleDown num den e
    min infiniteMagnitude (Binary.toMagnitude ⟨roundHalfEven n d, e⟩)

/-- Powers of ten beyond this one, up or down, leave the range of doubles whatever number
below ten they multiply. -/
def widestScale : Nat := 400

/-- The magnitude of the double nearest to `n * 10 ^ scale`. Scales that leave the range of
doubles by far are decided without computing the power. -/
def nearestDecimal (n : Nat) (scale : Int) : Nat :=
  if n = 0 then 0
  else if widestScale < scale then infiniteMagnitude
  else if scale + n.log2 + 1 < -widestScale then 0
  else nearestMagnitude (n * Nat.pow 10 scale.toNat) (Nat.pow 10 (-scale).toNat)

/-- The double nearest to a numeral. -/
def Numeral.toFloat (n : Numeral) : Float :=
  ofMagnitude n.negative (nearestDecimal n.coefficient n.scale)

end WidgetSkin.Decimal
