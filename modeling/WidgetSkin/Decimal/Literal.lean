import WidgetSkin.Decimal.Binary

/-!
# Number literals

Readers of number texts. `Numeral.ofJson?` takes the strict grammar of JSON. `readFloat?`
takes what a user may type: an optional sign, digits with an optional point of which at least
one is there, an optional exponent, or the name of an infinity or of the not-a-number in
letters of any case.

## Main definitions

* `Numeral.ofJson?` — the numeral of a JSON number.
* `Numeral.ofTyped?` — the numeral of a typed number without its sign.
* `readFloat?` — the double of a typed number.
-/

namespace WidgetSkin.Decimal

/-! ## Parts of a literal -/

/-- The digits in front of `cs`, and the rest. -/
def spanDigits : List Char → List Digit × List Char
  | [] => ([], [])
  | c :: cs =>
    match Digit.ofChar? c with
    | some d => let (ds, rest) := spanDigits cs; (d :: ds, rest)
    | none => ([], c :: cs)

/-- A sign in front of `cs`: whether it is a minus, and the rest. -/
def spanSign : List Char → Bool × List Char
  | '-' :: cs => (true, cs)
  | '+' :: cs => (false, cs)
  | cs => (false, cs)

/-- An exponent that is the whole of `cs`; an empty text is no exponent. -/
def exponentPart? (cs : List Char) : Option (Option Int) :=
  match cs with
  | [] => some none
  | e :: cs =>
    if e = 'e' ∨ e = 'E' then
      let (negative, cs) := spanSign cs
      match spanDigits cs with
      | ([], _) => none
      | (ds, []) =>
        let n : Int := ofDigits 0 ds
        some (some (if negative then -n else n))
      | _ => none
    else none

/-! ## JSON -/

/-- The digits behind a point in front of `cs`, and the rest; a point needs a digit. -/
def jsonFraction? (cs : List Char) : Option (List Digit × List Char) :=
  match cs with
  | '.' :: cs =>
    match spanDigits cs with
    | ([], _) => none
    | found => some found
  | cs => some ([], cs)

/-- The numeral of a JSON number: no plus sign, no superfluous zero in front, digits on both
sides of a point. -/
def Numeral.ofJson? (cs : List Char) : Option Numeral :=
  let (negative, cs) :=
    match cs with
    | '-' :: cs => (true, cs)
    | cs => (false, cs)
  match spanDigits cs with
  | ([], _) => none
  | (d :: ds, rest) =>
    if d.val = 0 ∧ ds ≠ [] then none
    else do
      let (fraction, rest) ← jsonFraction? rest
      let exponent ← exponentPart? rest
      return ⟨negative, ofDigits 0 (d :: ds), fraction, exponent⟩

/-! ## Typed numbers -/

/-- The numeral of a typed number behind its sign. -/
def Numeral.ofTyped? (negative : Bool) (cs : List Char) : Option Numeral :=
  let (whole, rest) := spanDigits cs
  let (fraction, rest) :=
    match rest with
    | '.' :: rest => spanDigits rest
    | rest => ([], rest)
  if whole.isEmpty && fraction.isEmpty then none
  else (exponentPart? rest).map (⟨negative, ofDigits 0 whole, fraction, ·⟩)

/-- An ASCII letter in lower case, anything else as it is. -/
def lowerAscii (cs : List Char) : String :=
  .ofList (cs.map Char.toLower)

/-- The double of a typed number. -/
def readFloat? (cs : List Char) : Option Float :=
  let (negative, rest) := spanSign cs
  let name := lowerAscii rest
  if name = "inf" ∨ name = "infinity" then some (ofMagnitude negative infiniteMagnitude)
  else if name = "nan" then some (0 / 0)
  else (Numeral.ofTyped? negative rest).map Numeral.toFloat

end WidgetSkin.Decimal
