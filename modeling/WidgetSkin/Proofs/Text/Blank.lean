import Mathlib.Data.List.TakeWhile
import WidgetSkin.Text.Blank

/-!
# Trimmed texts

Blanks around a text do not matter, and a text without blanks at its ends is left as it is.

## Main statements

* `trimEnd_append_blanks`, `trimEnd_eq_self` — the end of a text.
* `trim_eq_iff` — the text between the blanks is the only one.
-/

namespace WidgetSkin.Text

/-- Trimming the end is dropping from the other side. -/
theorem reverse_trimEnd (cs : List Char) : (trimEnd cs).reverse = cs.reverse.dropWhile isBlank := by
  obtain ⟨blanks, hcs, hblanks⟩ := exists_trimEnd_append cs
  have hreverse : cs.reverse = blanks.reverse ++ (trimEnd cs).reverse := by
    rw [← List.reverse_append, ← hcs]
  rw [hreverse, List.dropWhile_append_of_pos (by simpa using hblanks)]
  cases hlast : (trimEnd cs).reverse with
  | nil => rfl
  | cons c rest =>
    have hc : (trimEnd cs).getLast? = some c := by rw [← List.head?_reverse, hlast]; rfl
    rw [List.dropWhile_cons_of_neg (by simp [isBlank_of_getLast?_trimEnd cs hc])]

theorem trimEnd_append_blanks (cs : List Char) {blanks : List Char}
    (h : ∀ c ∈ blanks, isBlank c = true) : trimEnd (cs ++ blanks) = trimEnd cs := by
  rw [← List.reverse_inj, reverse_trimEnd, reverse_trimEnd, List.reverse_append,
    List.dropWhile_append_of_pos (by simpa using h)]

/-- A text that does not end in a blank is left as it is. -/
theorem trimEnd_eq_self {cs : List Char} (h : ∀ c, cs.getLast? = some c → isBlank c = false) :
    trimEnd cs = cs := by
  rw [← List.reverse_inj, reverse_trimEnd]
  cases hcs : cs.reverse with
  | nil => rfl
  | cons c rest =>
    have hc : cs.getLast? = some c := by rw [← List.head?_reverse, hcs]; rfl
    rw [List.dropWhile_cons_of_neg (by simp [h c hc])]

/-- The text that is left is the one between blanks that itself has none at its ends. -/
theorem trim_eq_iff {cs kept : List Char} : trim cs = kept ↔ ∃ before after,
    cs = before ++ kept ++ after ∧ (∀ c ∈ before, isBlank c = true) ∧
      (∀ c ∈ after, isBlank c = true) ∧ (∀ c ∈ kept.head?, isBlank c = false) ∧
      ∀ c ∈ kept.getLast?, isBlank c = false := by
  constructor
  · rintro rfl
    obtain ⟨after, hafter, hblank⟩ := exists_trimEnd_append (trimStart cs)
    refine ⟨cs.takeWhile isBlank, after, ?_, fun c hc => ?_, hblank, fun c hc => ?_, fun c hc =>
      isBlank_of_getLast?_trimEnd _ hc⟩
    · rw [trim, List.append_assoc, ← hafter, trimStart, List.takeWhile_append_dropWhile]
    · exact List.mem_takeWhile_imp hc
    · rw [Option.mem_def, trim] at hc
      have hhead : (trimStart cs).head? = some c := by
        rw [hafter, List.head?_append, hc]
        rfl
      have hnot := List.head?_dropWhile_not isBlank cs
      rw [← trimStart, hhead] at hnot
      simpa using hnot
  · rintro ⟨before, after, rfl, hbefore, hafter, hfirst, hlast⟩
    rw [trim, trimStart, List.append_assoc, List.dropWhile_append_of_pos hbefore]
    cases kept with
    | nil =>
      have hnil : after.dropWhile isBlank = [] := List.dropWhile_eq_nil_iff.2 hafter
      rw [List.nil_append, hnil, trimEnd_nil]
    | cons c cs =>
      rw [List.cons_append, List.dropWhile_cons_of_neg (by simp [hfirst c rfl]), ← List.cons_append,
        trimEnd_append_blanks _ hafter, trimEnd_eq_self hlast]

end WidgetSkin.Text
