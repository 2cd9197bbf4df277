import WidgetSkin.Decimal.Shortest

/-!
# Ways of writing a double

All number texts use the shortest digits that read back; they differ in where an exponent
begins, whether an integral number ends in `.0`, whether a positive exponent carries a sign,
and which of two decimals equally near is taken.

## Main definitions

* `Style` — these decisions.
* `Style.numeral` — the numeral of a finite double.
* `Style.text` — the text of any double.
-/

namespace WidgetSkin.Decimal

/-- How doubles are written in one place. -/
structure Style where
  /-- The exponents of the leading digit that are written without exponent. -/
  positional : Int → Bool
  /-- Whether an integral number is written with a zero behind the point. -/
  pointZero : Bool
  /-- Whether a positive exponent carries a sign. -/
  plusSign : Bool
  /-- Which of two shortest decimals equally near to the double is taken. -/
  tie : Tie

namespace Style

/-- Digits only, however long. -/
def plain : Style := ⟨fun _ => true, false, false, .greater⟩

/-- The description of a state: positional from `1e-4` up to below `1e16`. -/
def description : Style := ⟨fun e => -4 ≤ e && e < 16, true, false, .greater⟩

/-- A saved design: positional from `1e-5` up to below `1e16`. -/
def json : Style := ⟨fun e => -5 ≤ e && e < 16, true, true, .even⟩

/-- The numeral of a decimal without exponent. -/
def positionalNumeral (style : Style) (negative : Bool) (s : Scaled) : Numeral :=
  if 0 ≤ s.exponent then
    ⟨negative, s.digits * Nat.pow 10 s.exponent.toNat,
      if style.pointZero then lowDigits 1 0 else [], none⟩
  else
    let places := s.exponent.natAbs
    ⟨negative, s.digits / Nat.pow 10 places, lowDigits places s.digits, none⟩

/-- The numeral of a decimal with one digit in front of the point and an exponent. -/
def scientificNumeral (negative : Bool) (s : Scaled) : Numeral :=
  let places := digitCount s.digits - 1
  ⟨negative, s.digits / Nat.pow 10 places, lowDigits places s.digits, some (places + s.exponent)⟩

/-- The numeral of a decimal. -/
def numeralOf (style : Style) (negative : Bool) (s : Scaled) : Numeral :=
  if style.positional (digitCount s.digits - 1 + s.exponent) then
    style.positionalNumeral negative s
  else scientificNumeral negative s

/-- The numeral of a finite double. -/
def numeral (style : Style) (x : Float) : Numeral :=
  if magnitude x = 0 then style.positionalNumeral (isNegative x) ⟨0, 0⟩
  else style.numeralOf (isNegative x) (shortest style.tie (.ofMagnitude (magnitude x)))

/-- The text of a double. -/
def text (style : Style) (x : Float) : String :=
  if x.isNaN then "NaN"
  else if x.isFinite then .ofList ((style.numeral x).render style.plusSign)
  else if isNegative x then "-inf" else "inf"

end Style

/-- The number text of a skin file: plain digits, and zero for what is no number there. -/
def format (x : Float) : String :=
  if !x.isFinite || magnitude x == 0 then "0" else Style.plain.text x

end WidgetSkin.Decimal
