import WidgetSkin.Decimal.Binary

/-!
# Shortest decimals

The fewest decimal digits that read back as a given double, and among those the ones nearest
to its exact value. A decimal reads back as the double if it lies in the interval of numbers
that round to it; the ends of the interval belong to it when the mantissa is even.

The search goes over the grids of multiples of `10 ^ k` from coarse to fine. On each grid only
the two neighbours of the exact value can lie in the interval first. Where the exact value is
halfway between both, the place that the number is written for decides.

## Main definitions

* `Tie` — which of two decimals equally near is taken.
* `Interval` — the numbers that round to a double.
* `shortest` — the shortest decimal of a double.
-/

namespace WidgetSkin.Decimal

/-- Which of two neighbours on a grid is taken for a value halfway between them. -/
inductive Tie where
  | greater
  /-- The even multiple. -/
  | even
deriving DecidableEq

/-- Whether the lower of two neighbours, `below` and the next one, is taken. -/
def Tie.takesLower (tie : Tie) (below : Nat) : Bool :=
  match tie with
  | greater => false
  | even => below % 2 = 0

/-- The numbers that round to a double, in units of a quarter of its last place: the unit is
`2 ^ exponent`. -/
structure Interval where
  /-- The lower end. -/
  low : Nat
  /-- The exact value of the double. -/
  exact : Nat
  /-- The upper end. -/
  high : Nat
  /-- The power of two of the unit. -/
  exponent : Int
  /-- Whether the ends belong to the interval. -/
  closed : Bool

namespace Interval

/-- The interval of a double. Below a power of two the neighbour is half as far away, unless
the doubles there are the smallest ones. -/
def ofBinary (b : Binary) : Interval where
  low := if b.mantissa = leadingBit ∧ Binary.leastExponent < b.exponent then 4 * b.mantissa - 1
    else 4 * b.mantissa - 2
  exact := 4 * b.mantissa
  high := 4 * b.mantissa + 2
  exponent := b.exponent - 2
  closed := b.mantissa % 2 = 0

/-- Factors that bring multiples of `10 ^ k` and multiples of the unit to one measure: `n`
steps of the grid and `x` units compare as `n * gridFactor` and `x * unitFactor`. -/
def gridFactor (i : Interval) (k : Int) : Nat :=
  Nat.pow 10 k.toNat * Nat.pow 2 (-i.exponent).toNat

@[inherit_doc gridFactor]
def unitFactor (i : Interval) (k : Int) : Nat :=
  Nat.pow 10 (-k).toNat * Nat.pow 2 i.exponent.toNat

/-- Whether `n * 10 ^ k` lies in the interval. -/
def contains (i : Interval) (k : Int) (n : Nat) : Bool :=
  let x := n * i.gridFactor k
  let low := i.low * i.unitFactor k
  let high := i.high * i.unitFactor k
  if i.closed then low ≤ x && x ≤ high else low < x && x < high

/-- The multiple of `10 ^ k` in the interval that is nearest to the exact value. -/
def onGrid? (i : Interval) (tie : Tie) (k : Int) : Option Nat :=
  let exact := i.exact * i.unitFactor k
  let below := exact / i.gridFactor k
  let above := below + 1
  let toBelow := exact - below * i.gridFactor k
  let toAbove := above * i.gridFactor k - exact
  match i.contains k below, i.contains k above with
  | true, true =>
    if toBelow < toAbove ∨ (toBelow = toAbove ∧ tie.takesLower below) then some below
    else some above
  | true, false => some below
  | false, true => some above
  | false, false => none

end Interval

/-- The exact decimal value, with as many digits as it takes. -/
def Binary.toScaled (b : Binary) : Scaled :=
  if 0 ≤ b.exponent then ⟨b.mantissa * Nat.pow 2 b.exponent.toNat, 0⟩
  else ⟨b.mantissa * Nat.pow 5 b.exponent.natAbs, b.exponent⟩

/-- A power of ten above the value: `log10 2` is less than `0.30103`. -/
def Binary.topExponent (b : Binary) : Int :=
  ((b.mantissa.log2 + 1 : Int) + b.exponent) * 30103 / 100000 + 2

/-- How many grids are searched: seventeen digits always suffice, and the search starts at
most three places above the first one. -/
def gridCount : Nat := 21

/-- The shortest decimal of a positive double. -/
def shortest (tie : Tie) (b : Binary) : Scaled :=
  let interval := Interval.ofBinary b
  let found? := (List.range gridCount).findSome? fun (step : Nat) =>
    let k := b.topExponent - step
    (interval.onGrid? tie k).map (⟨·, k⟩)
  found?.getD b.toScaled

end WidgetSkin.Decimal
