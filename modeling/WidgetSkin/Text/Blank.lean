/-!
# Blank characters

The characters with the Unicode property `White_Space`, and the removal of blanks at the
ends of a text.

## Main definitions

* `isBlank` — membership in the property.
* `trimStart`, `trimEnd`, `trim` — drop the blanks at one end or at both.
-/

namespace WidgetSkin.Text

/-- The code points with the property `White_Space`, as closed ranges. -/
def blankRanges : List (Nat × Nat) :=
  [(0x09, 0x0D), (0x20, 0x20), (0x85, 0x85), (0xA0, 0xA0), (0x1680, 0x1680),
    (0x2000, 0x200A), (0x2028, 0x2029), (0x202F, 0x202F), (0x205F, 0x205F),
    (0x3000, 0x3000)]

/-- Whether `c` has the property `White_Space`. -/
def isBlank (c : Char) : Bool :=
  blankRanges.any fun (low, high) => low ≤ c.toNat && c.toNat ≤ high

/-- Drop the blanks in front. -/
def trimStart (cs : List Char) : List Char :=
  cs.dropWhile isBlank

/-- Drop the blanks at the end. -/
def trimEnd : List Char → List Char
  | [] => []
  | c :: cs =>
    match trimEnd cs with
    | [] => if isBlank c then [] else [c]
    | kept => c :: kept

/-- Drop the blanks at both ends. -/
def trim (cs : List Char) : List Char :=
  trimEnd (trimStart cs)

@[simp] theorem trimEnd_nil : trimEnd [] = [] := rfl

/-- A text that is trimmed at the end is empty or ends in a character that is not blank. -/
theorem isBlank_of_getLast?_trimEnd (cs : List Char) {c : Char}
    (h : (trimEnd cs).getLast? = some c) : isBlank c = false := by
  induction cs with
  | nil => simp at h
  | cons d ds ih =>
    cases hds : trimEnd ds with
    | nil =>
      cases hd : isBlank d <;> simp_all [trimEnd]
    | cons e es => simp_all [trimEnd]

/-- Trimming the end removes a run of blanks and nothing else. -/
theorem exists_trimEnd_append (cs : List Char) :
    ∃ blanks, cs = trimEnd cs ++ blanks ∧ ∀ c ∈ blanks, isBlank c = true := by
  induction cs with
  | nil => exact ⟨[], by simp⟩
  | cons d ds ih =>
    obtain ⟨blanks, hds, hall⟩ := ih
    cases ht : trimEnd ds with
    | nil =>
      cases hd : isBlank d with
      | true =>
        refine ⟨d :: ds, by simp [trimEnd, ht, hd], ?_⟩
        rw [ht, List.nil_append] at hds
        simp_all
      | false =>
        refine ⟨ds, by simp [trimEnd, ht, hd], ?_⟩
        rw [ht, List.nil_append] at hds
        simp_all
    | cons e es =>
      rw [ht] at hds
      exact ⟨blanks, by simp [trimEnd, ht, ← hds], hall⟩

end WidgetSkin.Text
