import WidgetSkin.Decimal.Literal

/-!
# Written numerals read back

A written numeral is read as the numeral that was written, each part up to the mark that ends it.

## Main statements

* `exists_digits_eq` — the digits of a natural number.
* `Numeral.ofJson?_render` — a numeral comes back from its text.
-/

namespace WidgetSkin.Decimal

/-- The text does not go on with a digit. -/
def EndsDigits (cs : List Char) : Prop :=
  ∀ c ∈ cs.head?, Digit.ofChar? c = none

theorem spanDigits_map (ds : List Digit) {rest : List Char} (h : EndsDigits rest) :
    spanDigits (ds.map Digit.toChar ++ rest) = (ds, rest) := by
  induction ds with
  | nil =>
    cases rest with
    | nil => rfl
    | cons c cs => simp [spanDigits, h c (by simp)]
  | cons d ds ih => simp [spanDigits, Digit.ofChar?_toChar, ih]

theorem ofDigits_append (high : Nat) (ds es : List Digit) :
    ofDigits high (ds ++ es) = ofDigits (ofDigits high ds) es := by
  simp [ofDigits]

/-- A natural number is written with digits that stand for it, the first of them a zero only if
it is alone. -/
theorem exists_digits_eq (n : Nat) :
    ∃ d ds, Nat.toDigits 10 n = (d :: ds).map Digit.toChar ∧ ofDigits 0 (d :: ds) = n ∧
      (d.val = 0 → ds = []) := by
  induction n using Nat.strongRecOn with
  | ind n ih =>
    rcases Nat.lt_or_ge n 10 with hlt | hge
    · refine ⟨⟨n, hlt⟩, [], ?_, ?_, fun _ => rfl⟩
      · rw [Nat.toDigits_of_lt_base hlt]
        rfl
      · simp [ofDigits]
    · obtain ⟨d, ds, htext, hvalue, hlead⟩ := ih (n / 10) (by omega)
      refine ⟨d, ds ++ [⟨n % 10, Nat.mod_lt _ (by decide)⟩], ?_, ?_, fun hd => ?_⟩
      · rw [Nat.toDigits_of_base_le (by decide) hge, htext]
        simp [Digit.toChar]
      · rw [← List.cons_append, ofDigits_append, hvalue]
        simp only [ofDigits, List.foldl_cons, List.foldl_nil]
        omega
      · -- a zero in front would make the number in front a zero
        have hzero : n / 10 = 0 := by
          rw [← hvalue, hlead hd]
          simp [ofDigits, hd]
        omega

theorem spanDigits_toDigits {n : Nat} {d : Digit} {ds : List Digit}
    (htext : Nat.toDigits 10 n = (d :: ds).map Digit.toChar) {rest : List Char}
    (h : EndsDigits rest) : spanDigits (Nat.toDigits 10 n ++ rest) = (d :: ds, rest) := by
  rw [htext]
  exact spanDigits_map _ h

theorem endsDigits_nil : EndsDigits [] := by
  simp [EndsDigits]

theorem exponentPart?_renderExponent (e : Int) :
    exponentPart? (Numeral.renderExponent true e) = some (some e) := by
  obtain ⟨d, ds, htext, hvalue, -⟩ := exists_digits_eq e.natAbs
  have hspan : spanDigits (Nat.toDigits 10 e.natAbs) = (d :: ds, []) := by
    simpa using spanDigits_toDigits htext endsDigits_nil
  by_cases hneg : e < 0
  · simp only [Numeral.renderExponent, hneg, if_true, exponentPart?, true_or, List.singleton_append,
      spanSign, hspan, hvalue]
    congr 2
    omega
  · simp only [Numeral.renderExponent, hneg, if_false, if_true, exponentPart?, true_or,
      List.singleton_append, spanSign, hspan, hvalue]
    congr 2
    simp
    omega

namespace Numeral

/-- The text behind the digits of the fraction. -/
def exponentText (n : Numeral) : List Char :=
  n.exponent.elim [] (renderExponent true)

/-- The text behind the digits of the whole part. -/
def fractionText (n : Numeral) : List Char :=
  (if n.fraction.isEmpty then [] else '.' :: n.fraction.map Digit.toChar) ++ n.exponentText

theorem exponentPart?_exponentText (n : Numeral) :
    exponentPart? n.exponentText = some n.exponent := by
  cases h : n.exponent with
  | none => simp [exponentText, h, exponentPart?]
  | some e => simpa [exponentText, h] using exponentPart?_renderExponent e

theorem head?_exponentText (n : Numeral) : ∀ c ∈ n.exponentText.head?, c = 'e' := by
  cases h : n.exponent <;> simp [exponentText, h, renderExponent]

theorem endsDigits_exponentText (n : Numeral) : EndsDigits n.exponentText := by
  intro c hc
  rw [head?_exponentText n c hc]
  decide

theorem endsDigits_fractionText (n : Numeral) : EndsDigits n.fractionText := by
  cases h : n.fraction with
  | nil => simpa [fractionText, h] using endsDigits_exponentText n
  | cons d ds =>
    intro c hc
    obtain rfl : c = '.' := by simpa [fractionText, h, eq_comm] using hc
    decide

theorem jsonFraction?_fractionText (n : Numeral) :
    jsonFraction? n.fractionText = some (n.fraction, n.exponentText) := by
  cases h : n.fraction with
  | nil =>
    have htext : n.fractionText = n.exponentText := by simp [fractionText, h]
    rw [htext]
    cases hexponent : n.exponentText with
    | nil => rfl
    | cons c cs =>
      obtain rfl : c = 'e' := head?_exponentText n c (by simp [hexponent])
      rfl
  | cons d ds =>
    have htext : n.fractionText = '.' :: ((d :: ds).map Digit.toChar ++ n.exponentText) := by
      simp [fractionText, h]
    simp only [htext, jsonFraction?, spanDigits_map _ (endsDigits_exponentText n)]

/-- The numeral behind the sign. -/
def ofUnsigned? (negative : Bool) (cs : List Char) : Option Numeral :=
  match spanDigits cs with
  | ([], _) => none
  | (d :: ds, rest) =>
    if d.val = 0 ∧ ds ≠ [] then none
    else do
      let (fraction, rest) ← jsonFraction? rest
      let exponent ← exponentPart? rest
      return ⟨negative, ofDigits 0 (d :: ds), fraction, exponent⟩

theorem ofJson?_minus (cs : List Char) : ofJson? ('-' :: cs) = ofUnsigned? true cs := rfl

theorem ofJson?_of_ne_minus {c : Char} {cs : List Char} (h : c ≠ '-') :
    ofJson? (c :: cs) = ofUnsigned? false (c :: cs) := by
  unfold ofJson?
  split
  next negative rest heq =>
    split at heq
    · next hminus => exact absurd (List.cons.inj hminus).1 h
    · cases heq
      rfl

theorem ofUnsigned?_render (n : Numeral) :
    ofUnsigned? n.negative (Nat.toDigits 10 n.whole ++ n.fractionText) = some n := by
  obtain ⟨d, ds, htext, hvalue, hlead⟩ := exists_digits_eq n.whole
  have hzero : ¬ (d.val = 0 ∧ ds ≠ []) := fun h => h.2 (hlead h.1)
  simp only [ofUnsigned?, spanDigits_toDigits htext (endsDigits_fractionText n)]
  rw [if_neg hzero, hvalue, jsonFraction?_fractionText]
  simp [exponentPart?_exponentText]

/-- A numeral comes back from its text. -/
theorem ofJson?_render (n : Numeral) : ofJson? (n.render true) = some n := by
  have hrender : n.render true =
      (if n.negative then ['-'] else []) ++ (Nat.toDigits 10 n.whole ++ n.fractionText) := by
    simp [render, fractionText, exponentText, List.append_assoc]
  have hread := ofUnsigned?_render n
  rw [hrender]
  cases hnegative : n.negative with
  | true =>
    rw [hnegative] at hread
    exact (ofJson?_minus _).trans hread
  | false =>
    -- without a minus sign the text begins with a digit
    obtain ⟨d, ds, htext, -, -⟩ := exists_digits_eq n.whole
    have hdigit : ∀ d : Digit, d.toChar ≠ '-' := by decide
    rw [hnegative, htext] at hread
    rw [htext]
    exact (ofJson?_of_ne_minus (hdigit d)).trans hread

end Numeral

end WidgetSkin.Decimal
