import WidgetSkin.Text.LineBreak

/-!
# Texts and their lines

A text that is put together from lines, each with a line feed behind it, is cut at the line
feeds into the same lines. Values keep to one line once their breaks are written as marks.

## Main definitions

* `OnOneLine` — a text without line breaks.

## Main statements

* `onOneLine_iff` — what it takes to stand on one line.
* `splitOn_flatMap_lineFeed` — cutting a text into the lines that it is made of.
* `LineBreak.isSingleLine_encode` — no value breaks its line.
* `LineBreak.encode_eq_self` — a value without breaks is written as it is.
-/

namespace WidgetSkin

/-- The text holds no line break. -/
def OnOneLine (s : String) : Prop :=
  '\n' ∉ s.toList ∧ '\r' ∉ s.toList

namespace Text

theorem isSingleLine_iff {s : String} :
    isSingleLine s = true ↔ '\n' ∉ s.toList ∧ '\r' ∉ s.toList := by
  simp only [isSingleLine, isLineEnd, Bool.not_eq_true', List.any_eq_false, Bool.or_eq_true,
    beq_iff_eq]
  grind

@[simp] theorem isSingleLine_append (s t : String) :
    isSingleLine (s ++ t) = (isSingleLine s && isSingleLine t) := by
  simp [isSingleLine]

theorem isDigit_of_mem_repr {n : Nat} {c : Char} (h : c ∈ n.repr.toList) : c.isDigit = true := by
  have hmem : c ∈ Nat.toDigits 10 n := by simpa [Nat.repr] using h
  exact Nat.isDigit_of_mem_toDigits (by decide) (by decide) hmem

theorem isSingleLine_repr (n : Nat) : isSingleLine n.repr = true := by
  rw [isSingleLine_iff]
  exact ⟨fun h => absurd (isDigit_of_mem_repr h) (by decide),
    fun h => absurd (isDigit_of_mem_repr h) (by decide)⟩

/-- Different numbers have different digits. -/
theorem eq_of_repr_eq {m n : Nat} (h : m.repr = n.repr) : m = n := by
  have hdigits : Nat.toDigits 10 m = Nat.toDigits 10 n := by
    simpa [Nat.repr] using congrArg String.toList h
  have hvalue := congrArg (Nat.ofDigitChars 10 · 0) hdigits
  simpa [Nat.ofDigitChars_toDigits] using hvalue

/-- Lines with a line feed behind each come back as they were, and the text ends with the last
line feed. -/
theorem splitOn_flatMap_lineFeed {lines : List (List Char)} (h : ∀ line ∈ lines, '\n' ∉ line) :
    (lines.flatMap (· ++ ['\n'])).splitOn '\n' = lines ++ [[]] := by
  induction lines with
  | nil => simp
  | cons line lines ih =>
    have hline : '\n' ∉ line := h line List.mem_cons_self
    have hrest : ∀ l ∈ lines, '\n' ∉ l := fun l hl => h l (List.mem_cons_of_mem _ hl)
    rw [List.flatMap_cons, List.append_assoc, List.singleton_append,
      List.splitOn_append_cons_self_of_not_mem hline, ih hrest, List.cons_append]

namespace LineBreak

theorem isLineEnd_of_mem_encodeSingles {cs : List Char} {c : Char} (h : c ∈ encodeSingles cs) :
    isLineEnd c = false := by
  obtain ⟨d, -, hc⟩ := List.mem_flatMap.1 h
  split at hc
  · have hmark : mark.any isLineEnd = false := by decide
    simpa using List.any_eq_false.1 hmark c hc
  · next hd =>
    rw [List.mem_singleton.1 hc]
    simpa using hd

@[simp] theorem isSingleLine_encode (s : String) : isSingleLine (encode s) = true := by
  have h : ∀ c ∈ (encode s).toList, isLineEnd c = false := fun c hc =>
    isLineEnd_of_mem_encodeSingles (by simpa [encode] using hc)
  simpa [isSingleLine, List.any_eq_false] using h

theorem encodePairs_eq_self {cs : List Char} (h : '\r' ∉ cs) : encodePairs cs = cs := by
  fun_induction encodePairs cs with
  | case1 => rfl
  | case2 cs => simp at h
  | case3 c cs _ ih => rw [ih (List.not_mem_of_not_mem_cons h)]

theorem encodeSingles_eq_self {cs : List Char} (h : ∀ c ∈ cs, isLineEnd c = false) :
    encodeSingles cs = cs := by
  induction cs with
  | nil => rfl
  | cons c cs ih =>
    have hrest := ih fun d hd => h d (List.mem_cons_of_mem _ hd)
    simp only [encodeSingles, List.flatMap_cons, h c List.mem_cons_self] at hrest ⊢
    rw [hrest]
    rfl

/-- A value without breaks is written as it is. -/
theorem encode_eq_self {s : String} (h : isSingleLine s = true) : encode s = s := by
  have hends : ∀ c ∈ s.toList, isLineEnd c = false := by
    simpa [isSingleLine, List.any_eq_false] using h
  rw [encode, encodePairs_eq_self (isSingleLine_iff.1 h).2, encodeSingles_eq_self hends,
    String.ofList_toList]

end LineBreak

end Text

theorem onOneLine_iff {s : String} : OnOneLine s ↔ Text.isSingleLine s = true :=
  Text.isSingleLine_iff.symm

end WidgetSkin
