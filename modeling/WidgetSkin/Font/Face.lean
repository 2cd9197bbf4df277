import WidgetSkin.Text.Blank

/-!
# Faces and their names

A font is chosen by its display name, such as `Roboto Bold Italic`. A skin file names the
family and the style apart.

## Main definitions

* `FontStyle` — bold or not, italic or not.
* `FaceName` — a family with a style.
* `FaceName.ofDisplayName` — takes the style words off the end of a display name, in any order
  and as often as they come.
* `FaceName.displayName` — the display name of a face.
-/

namespace WidgetSkin

/-- The style of a face. -/
structure FontStyle where
  bold : Bool := false
  italic : Bool := false
deriving DecidableEq

/-- The word for a style in a skin file. -/
def FontStyle.keyword : FontStyle → String
  | ⟨false, false⟩ => "normal"
  | ⟨true, false⟩ => "bold"
  | ⟨false, true⟩ => "italic"
  | ⟨true, true⟩ => "bolditalic"

/-- A family with a style. -/
structure FaceName where
  family : String
  style : FontStyle
deriving DecidableEq

/-- A word at the end of a display name. -/
inductive StyleWord where
  | bold
  | italic
  | regular
deriving DecidableEq

namespace StyleWord

/-- All style words. -/
def all : List StyleWord := [bold, italic, regular]

/-- The ending that a style word is recognised by. -/
def ending : StyleWord → List Char
  | bold => " Bold".toList
  | italic => " Italic".toList
  | regular => " Regular".toList

/-- The style with what a word adds. -/
def addTo (word : StyleWord) (style : FontStyle) : FontStyle :=
  match word with
  | bold => { style with bold := true }
  | italic => { style with italic := true }
  | regular => style

end StyleWord

namespace FaceName

/-- The style word at the beginning of a name that is read backwards, and what is left. -/
def backwardWord? (backward : List Char) : Option (StyleWord × List Char) :=
  StyleWord.all.findSome? fun word =>
    if word.ending.reverse.isPrefixOf backward then
      some (word, backward.drop word.ending.length)
    else none

theorem length_lt_of_backwardWord? {backward rest : List Char} {word : StyleWord}
    (h : backwardWord? backward = some (word, rest)) : rest.length < backward.length := by
  obtain ⟨w, -, hw⟩ := List.exists_of_findSome?_eq_some h
  split at hw
  · next hp =>
    have hlen := (List.isPrefixOf_iff_prefix.1 hp).length_le
    have hpos : 0 < w.ending.length := by cases w <;> decide
    simp only [Option.some.injEq, Prod.mk.injEq] at hw
    rw [← hw.2, List.length_drop]
    simp only [List.length_reverse] at hlen
    omega
  · simp at hw

/-- Take the style words off a name that is read backwards, with the blanks in front of each,
and add them to a style. -/
def stripBackward (style : FontStyle) (backward : List Char) : FontStyle × List Char :=
  match _h : backwardWord? backward with
  | none => (style, backward)
  | some (word, rest) => stripBackward (word.addTo style) (rest.dropWhile Text.isBlank)
termination_by backward.length
decreasing_by
  exact Nat.lt_of_le_of_lt (List.dropWhile_sublist _).length_le (length_lt_of_backwardWord? _h)

/-- The family and style of a display name. -/
def ofDisplayName (name : String) : FaceName :=
  let (style, backward) := stripBackward {} (Text.trimEnd name.toList).reverse
  ⟨.ofList backward.reverse, style⟩

/-- The display name of a face. -/
def displayName (f : FaceName) : String :=
  f.family ++ (if f.style.bold then " Bold" else "") ++ (if f.style.italic then " Italic" else "")

end FaceName

end WidgetSkin
