/-!
# Decimal numerals

A written number taken apart: sign, whole part, digits behind the point, power of ten. Every
number text of the library is rendered from a numeral or read into one.

## Main definitions

* `Numeral` — the parts of a written number.
* `Numeral.render` — its text.
* `Numeral.coefficient`, `Numeral.scale` — its value, as an integer times a power of ten.
* `Scaled` — an integer times a power of ten.
-/

namespace WidgetSkin.Decimal

/-- A decimal digit. -/
abbrev Digit := Fin 10

/-- The character of a digit. -/
def Digit.toChar (d : Digit) : Char :=
  Nat.digitChar d

/-- The digit that a character stands for. -/
def Digit.ofChar? (c : Char) : Option Digit :=
  if '0' ≤ c ∧ c ≤ '9' then some (Fin.ofNat 10 (c.toNat - '0'.toNat)) else none

/-- The number that a row of digits stands for, continuing the number `high`. -/
def ofDigits (high : Nat) (ds : List Digit) : Nat :=
  ds.foldl (fun n d => 10 * n + d.val) high

/-- The last `places` digits of `n`, the most significant first. -/
def lowDigits : (places : Nat) → (n : Nat) → List Digit
  | 0, _ => []
  | places + 1, n => lowDigits places (n / 10) ++ [Fin.ofNat 10 n]

/-- How many digits `n` is written with. -/
def digitCount (n : Nat) : Nat :=
  (Nat.toDigits 10 n).length

/-- The parts of a written number. -/
structure Numeral where
  /-- Whether a minus sign stands in front. -/
  negative : Bool
  /-- The part in front of the point. -/
  whole : Nat
  /-- The digits behind the point; without any there is no point. -/
  fraction : List Digit
  /-- The power of ten behind the `e`, if there is one. -/
  exponent : Option Int
deriving DecidableEq

namespace Numeral

/-- The digits of the numeral read as one integer. -/
def coefficient (n : Numeral) : Nat :=
  ofDigits n.whole n.fraction

/-- The power of ten that `coefficient` is to be multiplied by. -/
def scale (n : Numeral) : Int :=
  n.exponent.getD 0 - n.fraction.length

/-- Whether the numeral is written without point and exponent. -/
def isInteger (n : Numeral) : Bool :=
  n.fraction.isEmpty && n.exponent.isNone

/-- The text of an exponent; `plusSign` says whether a positive one carries a sign. -/
def renderExponent (plusSign : Bool) (e : Int) : List Char :=
  let sign := if e < 0 then ['-'] else if plusSign then ['+'] else []
  'e' :: (sign ++ Nat.toDigits 10 e.natAbs)

/-- The text of a numeral; `plusSign` says whether a positive exponent carries a sign. -/
def render (plusSign : Bool) (n : Numeral) : List Char :=
  (if n.negative then ['-'] else []) ++ Nat.toDigits 10 n.whole ++
    (if n.fraction.isEmpty then [] else '.' :: n.fraction.map Digit.toChar) ++
    n.exponent.elim [] (renderExponent plusSign)

end Numeral

/-- The value `digits * 10 ^ exponent`. -/
structure Scaled where
  /-- The integer factor. -/
  digits : Nat
  /-- The power of ten. -/
  exponent : Int
deriving DecidableEq

/-- The numeral of a natural number. -/
def Numeral.ofNat (n : Nat) : Numeral :=
  ⟨false, n, [], none⟩

/-! ## Digits -/

theorem Digit.ofChar?_toChar (d : Digit) : ofChar? d.toChar = some d := by
  revert d; decide

@[simp] theorem length_lowDigits (places n : Nat) : (lowDigits places n).length = places := by
  induction places generalizing n with
  | zero => rfl
  | succ places ih => simp [lowDigits, ih]

/-- Cutting the last digits off a number and reading them behind the rest gives it back. -/
theorem ofDigits_lowDigits (places n : Nat) :
    ofDigits (n / Nat.pow 10 places) (lowDigits places n) = n := by
  induction places generalizing n with
  | zero => simp [ofDigits, lowDigits]
  | succ places ih =>
    have h := ih (n / 10)
    rw [Nat.div_div_eq_div_mul, Nat.mul_comm, show Nat.pow 10 places * 10 = Nat.pow 10 (places + 1)
      from rfl] at h
    simp only [ofDigits] at h
    simp only [ofDigits, lowDigits, List.foldl_append, h, List.foldl_cons, List.foldl_nil]
    simp only [Fin.ofNat]
    omega

end WidgetSkin.Decimal
