import WidgetSkin.Json.Printer
import WidgetSkin.Json.Reader

/-!
# Written strings read back

A string is read as the text that was written, whatever characters it has: each of them is one
piece, and the pieces stand for the characters.

## Main definitions

* `pieceOf` — the piece that a written character is read as.

## Main statements

* `spanString_quote` — the pieces of a written string.
* `pieceChars?_map_pieceOf` — the text that they stand for.
-/

namespace WidgetSkin.Json

open Text (Symbol)

/-- The controls that are written with a letter of their own. -/
def shortControls : List Char := ['\x08', '\x0c', '\n', '\r', '\t']

/-- The piece that a written character is read as. -/
def pieceOf (c : Char) : Piece :=
  if c.toNat < 0x20 ∧ c ∉ shortControls then .unit c.toNat else .char c

theorem hexValue?_digitChar {n : Nat} (h : n < 16) : hexValue? (Nat.digitChar n) = some n := by
  decide +revert

theorem unit?_control {n : Nat} (h : n < 0x20) :
    unit? '0' '0' (Nat.digitChar (n / 16)) (Nat.digitChar (n % 16)) = some (.unit n) := by
  have hzero : hexValue? '0' = some 0 := by decide
  have hhigh : hexValue? (Nat.digitChar (n / 16)) = some (n / 16) :=
    hexValue?_digitChar (by omega)
  have hlow : hexValue? (Nat.digitChar (n % 16)) = some (n % 16) :=
    hexValue?_digitChar (by omega)
  have hsplit : n / 16 * 16 + n % 16 = n := by omega
  simp [unit?, hzero, hhigh, hlow, hsplit]

/-- A character that is not escaped stands for itself. -/
theorem spanString_plain {c : Char} (hquote : c ≠ '"') (hbackslash : c ≠ '\\')
    (hcontrol : ¬ c.toNat < 0x20) (rest : List Symbol) :
    spanString (some c :: rest) = (Piece.char c).before (spanString rest) := by
  have hplain : ¬ (c = '\\' ∨ c.toNat < 0x20) := not_or.2 ⟨hbackslash, hcontrol⟩
  rw [spanString.eq_def]
  split
  case h_6 heq =>
    cases heq
    rw [if_neg hplain]
  all_goals simp_all

/-- A written character is one piece. -/
theorem spanString_escape (c : Char) (rest : List Symbol) :
    spanString ((escape c).map some ++ rest) = (pieceOf c).before (spanString rest) := by
  unfold escape
  split
  case h_8 hquote hbackslash h8 hc hn hr ht =>
    split
    · next hcontrol =>
      have hpiece : pieceOf c = .unit c.toNat := by
        rw [pieceOf, if_pos ⟨hcontrol, by simp_all [shortControls]⟩]
      simp [hpiece, spanString, unit?_control hcontrol]
    · next hcontrol =>
      have hpiece : pieceOf c = .char c := by
        rw [pieceOf, if_neg (fun h => hcontrol h.1)]
      rw [hpiece]
      exact spanString_plain hquote hbackslash hcontrol rest
  all_goals simp [spanString, escaped?, pieceOf, shortControls]

/-- The pieces of a written string end with its closing quotation mark. -/
theorem spanString_quote (cs : List Char) (rest : List Symbol) :
    spanString ((cs.flatMap escape ++ ['"']).map some ++ rest) =
      some (cs.map pieceOf, rest) := by
  induction cs with
  | nil => simp [spanString]
  | cons c cs ih =>
    rw [List.flatMap_cons, List.append_assoc, List.map_append, List.append_assoc,
      spanString_escape, ih]
    rfl

theorem pieceChars?_cons_pieceOf (c : Char) (ps : List Piece) :
    pieceChars? (pieceOf c :: ps) = (pieceChars? ps).map (c :: ·) := by
  simp only [pieceOf]
  split
  · next h =>
    -- a control is no surrogate, whatever comes behind it
    have hhigh : Text.isHighSurrogate c.toNat = false := by
      simp [Text.isHighSurrogate]
      omega
    have hlow : Text.isLowSurrogate c.toNat = false := by
      simp [Text.isLowSurrogate]
      omega
    rcases ps with - | ⟨- | - | -, ps⟩ <;> simp [pieceChars?, hhigh, hlow]
  · simp [pieceChars?]

/-- The pieces of a written string stand for its text. -/
theorem pieceChars?_map_pieceOf (cs : List Char) :
    pieceChars? (cs.map pieceOf) = some cs := by
  induction cs with
  | nil => rfl
  | cons c cs ih => rw [List.map_cons, pieceChars?_cons_pieceOf, ih, Option.map_some]

end WidgetSkin.Json
