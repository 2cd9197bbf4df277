import Mathlib.Computability.RegularExpressions
import WidgetSkin.Proofs.Decimal.Fewest
import WidgetSkin.Proofs.Decimal.Literal
import WidgetSkin.Text.Blank

/-!
# Number texts of a skin file

Whatever double is written into a skin file, the text is a plain literal: no exponent, no
superfluous zero on either side, no sign in front of a zero. A typed number is read as the numeral
that was written, so that the text of a finite double is read as the double, a zero of either sign
as zero.

## Main definitions

* `wholeNumber`, `literal` — the grammars of whole numbers and of plain literals.

## Main statements

* `format_mem_literal`, `format_ne_minus_zero` — the number texts are literals.
* `readFloat?_format` — the texts of finite doubles read back.
-/

namespace WidgetSkin.Decimal

/-! ## Literals -/

section Grammar

open RegularExpression

/-- One of the characters. -/
def oneOf (cs : List Char) : RegularExpression Char :=
  cs.foldr (fun c p => .char c + p) 0

/-- The text or nothing. -/
def optional (p : RegularExpression Char) : RegularExpression Char :=
  1 + p

def digit : RegularExpression Char := oneOf "0123456789".toList

def nonzeroDigit : RegularExpression Char := oneOf "123456789".toList

/-- Whole numbers, `0|[1-9][0-9]*`. -/
def wholeNumber : RegularExpression Char :=
  char '0' + nonzeroDigit * digit.star

/-- Plain literals, `-?(0|[1-9][0-9]*)(\.[0-9]*[1-9])?`. -/
def literal : RegularExpression Char :=
  optional (char '-') * wholeNumber * optional (char '.' * digit.star * nonzeroDigit)

/-- The characters that a grammar names. -/
def alphabet : RegularExpression Char → List Char
  | .zero => []
  | .epsilon => []
  | .char c => [c]
  | .plus p q => alphabet p ++ alphabet q
  | .comp p q => alphabet p ++ alphabet q
  | .star p => alphabet p

/-- A text of a grammar is made of its characters. -/
theorem mem_alphabet {p : RegularExpression Char} {cs : List Char} (h : cs ∈ p.matches') :
    ∀ c ∈ cs, c ∈ alphabet p := by
  induction p generalizing cs with
  | zero => exact absurd h (Language.notMem_zero cs)
  | epsilon =>
    rw [(Language.mem_one cs).1 h]
    exact List.forall_mem_nil _
  | char a =>
    rw [Set.mem_singleton_iff.1 h]
    exact fun c hc => hc
  | plus p q ihp ihq =>
    intro c hc
    rcases h with h | h
    · exact List.mem_append_left _ (ihp h c hc)
    · exact List.mem_append_right _ (ihq h c hc)
  | comp p q ihp ihq =>
    obtain ⟨front, hfront, back, hback, rfl⟩ := Language.mem_mul.1 h
    intro c hc
    rcases List.mem_append.1 hc with hc | hc
    · exact List.mem_append_left _ (ihp hfront c hc)
    · exact List.mem_append_right _ (ihq hback c hc)
  | star p ih =>
    obtain ⟨parts, rfl, hparts⟩ := Language.mem_kstar.1 h
    intro c hc
    obtain ⟨part, hpart, hc⟩ := List.mem_flatten.1 hc
    exact ih (hparts part hpart) c hc

theorem not_blank_of_mem_literal {cs : List Char} (h : cs ∈ literal.matches') :
    ∀ c ∈ cs, Text.isBlank c = false := by
  have halphabet : (alphabet literal).all (fun c => !Text.isBlank c) = true := by decide
  intro c hc
  simpa using List.all_eq_true.1 halphabet c (mem_alphabet h c hc)

theorem mem_oneOf {c : Char} {cs : List Char} (h : c ∈ cs) : [c] ∈ (oneOf cs).matches' := by
  induction cs with
  | nil => cases h
  | cons a cs ih =>
    rw [oneOf, List.foldr_cons, matches'_add, Language.mem_add, matches'_char]
    rcases List.mem_cons.1 h with rfl | h
    · exact .inl rfl
    · exact .inr (ih h)

theorem nil_mem_optional (p : RegularExpression Char) : [] ∈ (optional p).matches' :=
  .inl rfl

theorem mem_optional {p : RegularExpression Char} {cs : List Char} (h : cs ∈ p.matches') :
    cs ∈ (optional p).matches' :=
  .inr h

theorem toChar_mem_digit (d : Digit) : [d.toChar] ∈ digit.matches' :=
  mem_oneOf (by revert d; decide)

theorem toChar_mem_nonzeroDigit {d : Digit} (h : d ≠ 0) : [d.toChar] ∈ nonzeroDigit.matches' :=
  mem_oneOf (by revert d; decide)

theorem map_toChar_mem_star (ds : List Digit) : ds.map Digit.toChar ∈ digit.star.matches' := by
  rw [matches'_star, Language.mem_kstar]
  refine ⟨ds.map ([·.toChar]), ?_, fun cs hcs => ?_⟩
  · rw [← List.flatMap_def, List.map_eq_flatMap]
  · obtain ⟨d, -, rfl⟩ := List.mem_map.1 hcs
    exact toChar_mem_digit d

theorem toDigits_mem_wholeNumber (n : Nat) : Nat.toDigits 10 n ∈ wholeNumber.matches' := by
  obtain ⟨d, ds, htext, -, hlead⟩ := exists_digits_eq n
  rw [htext, wholeNumber, matches'_add, matches'_mul, Language.mem_add]
  by_cases hd : d = 0
  · obtain rfl : ds = [] := hlead (by rw [hd]; rfl)
    rw [hd]
    exact .inl rfl
  · exact .inr (Language.append_mem_mul (toChar_mem_nonzeroDigit hd) (map_toChar_mem_star ds))

end Grammar

namespace Numeral

variable {n : Numeral}

/-- A numeral without exponent and without a zero at its end is a literal. -/
theorem render_mem_literal (plusSign : Bool) (hexponent : n.exponent = none)
    (hlast : ∀ d ∈ n.fraction.getLast?, d ≠ 0) : n.render plusSign ∈ literal.matches' := by
  rw [render, hexponent, Option.elim_none, List.append_nil]
  refine Language.append_mem_mul (Language.append_mem_mul ?_ (toDigits_mem_wholeNumber n.whole)) ?_
  · split
    · exact mem_optional rfl
    · exact nil_mem_optional _
  · rcases List.eq_nil_or_concat' n.fraction with hnil | ⟨ds, d, hconcat⟩
    · rw [hnil]
      exact nil_mem_optional _
    · rw [hconcat, if_neg (by simp), List.map_append, ← List.cons_append]
      have hpoint : ['.'] ∈ (RegularExpression.char '.').matches' := rfl
      exact mem_optional (Language.append_mem_mul (Language.append_mem_mul hpoint
        (map_toChar_mem_star ds)) (toChar_mem_nonzeroDigit (hlast d (by simp [hconcat]))))

/-! ## Typed numbers -/

theorem ofTyped?_render (n : Numeral) :
    ofTyped? n.negative (Nat.toDigits 10 n.whole ++ n.fractionText) = some n := by
  obtain ⟨d, ds, htext, hvalue, -⟩ := exists_digits_eq n.whole
  simp only [ofTyped?, spanDigits_toDigits htext (endsDigits_fractionText n)]
  cases hfraction : n.fraction with
  | nil =>
    have hrest : n.fractionText = n.exponentText := by simp [fractionText, hfraction]
    have hpoint : ∀ rest, n.exponentText ≠ '.' :: rest := fun rest h => by
      have := head?_exponentText n '.' (by simp [h])
      simp at this
    rw [hrest]
    split
    · next h => exact absurd h (hpoint _)
    · simp [exponentPart?_exponentText, hvalue, ← hfraction]
  | cons e es =>
    have hrest : n.fractionText = '.' :: ((e :: es).map Digit.toChar ++ n.exponentText) := by
      simp [fractionText, hfraction]
    simp only [hrest, spanDigits_map _ (endsDigits_exponentText n)]
    simp [exponentPart?_exponentText, hvalue, ← hfraction]

theorem spanSign_toChar (d : Digit) (cs : List Char) :
    spanSign (d.toChar :: cs) = (false, d.toChar :: cs) := by
  have hsign : ∀ d : Digit, d.toChar ≠ '-' ∧ d.toChar ≠ '+' := by decide
  unfold spanSign
  split
  · next h => exact absurd (List.cons.inj h).1 (hsign d).1
  · next h => exact absurd (List.cons.inj h).1 (hsign d).2
  · rfl

theorem lowerAscii_toChar_ne (d : Digit) (cs : List Char) {name : String}
    (h : ∀ d : Digit, name.toList.head? ≠ some d.toChar) :
    lowerAscii (d.toChar :: cs) ≠ name := by
  have hlower : ∀ d : Digit, d.toChar.toLower = d.toChar := by decide
  rintro rfl
  exact h d (by simp [lowerAscii, hlower])

/-- What is typed with a digit in front, behind a sign or not, is a numeral. -/
theorem readFloat?_of_digit {negative : Bool} {text : List Char} {d : Digit} {cs : List Char}
    (h : spanSign text = (negative, d.toChar :: cs)) :
    readFloat? text = (ofTyped? negative (d.toChar :: cs)).map toFloat := by
  simp only [readFloat?, h]
  rw [if_neg, if_neg]
  · exact lowerAscii_toChar_ne d cs (by decide)
  · exact not_or.2 ⟨lowerAscii_toChar_ne d cs (by decide), lowerAscii_toChar_ne d cs (by decide)⟩

/-- A typed numeral is read as the double nearest to it. -/
theorem readFloat?_render (n : Numeral) : readFloat? (n.render true) = some n.toFloat := by
  obtain ⟨d, ds, htext, -, -⟩ := exists_digits_eq n.whole
  have hrender : n.render true = (if n.negative then ['-'] else []) ++
      d.toChar :: (ds.map Digit.toChar ++ n.fractionText) := by
    simp [render, fractionText, exponentText, htext]
  have hsign : spanSign (n.render true) =
      (n.negative, d.toChar :: (ds.map Digit.toChar ++ n.fractionText)) := by
    rw [hrender]
    cases n.negative with
    | true => rfl
    | false => exact spanSign_toChar d _
  have hread := ofTyped?_render n
  rw [htext, List.map_cons, List.cons_append] at hread
  rw [readFloat?_of_digit hsign, hread, Option.map_some]

end Numeral

/-! ## Number texts -/

section Format

variable {x : Float}

theorem render_of_exponent_eq_none {n : Numeral} (h : n.exponent = none) (plusSign : Bool) :
    n.render plusSign = n.render true := by
  simp [Numeral.render, h]

/-- A double that is no number, or zero, is written as zero. -/
theorem format_eq_zero (h : ¬ (x.isFinite = true ∧ magnitude x ≠ 0)) : format x = "0" := by
  rw [format, if_pos]
  simpa [or_iff_not_imp_left] using h

theorem plain_numeral_eq (h : magnitude x ≠ 0) : Style.plain.numeral x =
    Style.plain.positionalNumeral (isNegative x)
      (shortest .greater (.ofMagnitude (magnitude x))) := by
  rw [Style.numeral, if_neg h]
  rfl

theorem exponent_plain_numeral (h : magnitude x ≠ 0) :
    (Style.plain.numeral x).exponent = none := by
  rw [plain_numeral_eq h, Style.positionalNumeral]
  split <;> rfl

/-- Any other double is written as its numeral. -/
theorem toList_format (hfinite : x.isFinite = true) (h : magnitude x ≠ 0) :
    (format x).toList = (Style.plain.numeral x).render true := by
  have hnumber : x ≠ Float.nan := by
    rintro rfl
    exact absurd hfinite (by decide)
  rw [format, if_neg (by simp [hfinite, h]), Style.text, if_neg (by simp [hnumber]), if_pos hfinite,
    String.toList_ofList, render_of_exponent_eq_none (exponent_plain_numeral h)]

/-- The digits behind the point of a number text do not end in a zero. -/
theorem getLast?_fraction_ne_zero (hfinite : x.isFinite = true) (h : magnitude x ≠ 0) :
    ∀ d ∈ (Style.plain.numeral x).fraction.getLast?, d ≠ 0 := by
  have hlt := (isFinite_iff_magnitude x).1 hfinite
  rw [← Binary.toMagnitude_ofMagnitude (magnitude x)] at hlt
  have hmod := shortest_digits_mod_ten .greater (Binary.canonical_ofMagnitude _)
    (Binary.mantissa_ofMagnitude_pos h) hlt
  rw [plain_numeral_eq h, Style.positionalNumeral]
  generalize shortest .greater (.ofMagnitude (magnitude x)) = s at hmod ⊢
  split
  · simp [Style.plain]
  · next hexponent =>
    obtain ⟨places, hplaces⟩ : ∃ places, s.exponent.natAbs = places + 1 :=
      ⟨s.exponent.natAbs - 1, by omega⟩
    simp only [hplaces, lowDigits, List.getLast?_append, List.getLast?_singleton, Option.some_or,
      Option.mem_some]
    rintro d rfl hzero
    exact hmod (by simpa [Fin.ext_iff] using hzero)

/-- Every number text is a literal. -/
theorem format_mem_literal (x : Float) : (format x).toList ∈ literal.matches' := by
  by_cases h : x.isFinite = true ∧ magnitude x ≠ 0
  · rw [toList_format h.1 h.2]
    exact Numeral.render_mem_literal true (exponent_plain_numeral h.2)
      (getLast?_fraction_ne_zero h.1 h.2)
  · have hzero : Numeral.render true (.ofNat 0) ∈ literal.matches' :=
      Numeral.render_mem_literal true rfl (by simp [Numeral.ofNat])
    rw [format_eq_zero h]
    exact hzero

/-- The number text of a finite double other than zero is read as the double. -/
theorem readFloat?_format (hfinite : x.isFinite = true) (h : magnitude x ≠ 0) :
    readFloat? (format x).toList = some x := by
  rw [toList_format hfinite h, Numeral.readFloat?_render, Style.toFloat_numeral _ hfinite]

theorem readFloat?_format_zero (h : ¬ (x.isFinite = true ∧ magnitude x ≠ 0)) :
    readFloat? (format x).toList = some 0 := by
  have hzero : (Numeral.ofNat 0).toFloat = 0 := by decide
  rw [format_eq_zero h, ← hzero]
  exact Numeral.readFloat?_render (.ofNat 0)

/-- No number text has a sign in front of a zero. -/
theorem format_ne_minus_zero (x : Float) : format x ≠ "-0" := by
  intro heq
  by_cases h : x.isFinite = true ∧ magnitude x ≠ 0
  · have hread := readFloat?_format h.1 h.2
    rw [heq] at hread
    have hx := (Numeral.readFloat?_render ⟨true, 0, [], none⟩).symm.trans hread
    obtain rfl := Option.some.inj hx
    exact h.2 (by decide)
  · rw [format_eq_zero h] at heq
    exact absurd heq (by decide)

end Format

end WidgetSkin.Decimal
