import WidgetSkin.Decimal.Literal
import WidgetSkin.Json.Value
import WidgetSkin.Text.Encoding

/-!
# JSON tokens

The tokens of a text: marks, and values without parts. Texts arrive as symbols, so that a byte
that belongs to no character may stand inside a string and nowhere else.

## Main definitions

* `Json.Token` — the tokens.
* `Json.spanString` — the pieces of a string up to its closing quotation mark.
* `Json.tokens?` — the tokens of a text.
-/

namespace WidgetSkin.Json

open Text (Symbol)

/-- The marks between values. -/
inductive Mark where
  | openArray
  | closeArray
  | openObject
  | closeObject
  | colon
  | comma
deriving DecidableEq

/-- The mark that a character is. -/
def Mark.ofChar? : Char → Option Mark
  | '[' => some openArray
  | ']' => some closeArray
  | '\x7b' => some openObject
  | '\x7d' => some closeObject
  | ':' => some colon
  | ',' => some comma
  | _ => none

/-- A mark, or a value without parts. -/
inductive Token where
  | mark (m : Mark)
  | scalar (v : Value)

/-! ## Strings -/

/-- A piece of a string. -/
inductive Piece where
  | char (c : Char)
  /-- A unit of UTF-16, written by its number. -/
  | unit (n : Nat)
  /-- A byte that belongs to no character. -/
  | stray

/-- The character behind a backslash, if it stands for one character. -/
def escaped? : Char → Option Char
  | '"' => some '"'
  | '\\' => some '\\'
  | '/' => some '/'
  | 'b' => some '\x08'
  | 'f' => some '\x0c'
  | 'n' => some '\n'
  | 'r' => some '\r'
  | 't' => some '\t'
  | _ => none

/-- The value of a hexadecimal digit. -/
def hexValue? (c : Char) : Option Nat :=
  if '0' ≤ c ∧ c ≤ '9' then some (c.toNat - '0'.toNat)
  else if 'a' ≤ c ∧ c ≤ 'f' then some (c.toNat - 'a'.toNat + 10)
  else if 'A' ≤ c ∧ c ≤ 'F' then some (c.toNat - 'A'.toNat + 10)
  else none

/-- The unit written with four hexadecimal digits. -/
def unit? (a b c d : Char) : Option Piece := do
  return .unit (((← hexValue? a) * 16 + (← hexValue? b)) * 256 +
    (← hexValue? c) * 16 + (← hexValue? d))

/-- A piece in front of what the rest of a string was read as. -/
def Piece.before (p : Piece) (read : Option (List Piece × List Symbol)) :
    Option (List Piece × List Symbol) :=
  read.map fun (ps, rest) => (p :: ps, rest)

@[grind =] theorem Piece.before_eq_some_iff {p : Piece}
    {read : Option (List Piece × List Symbol)} {ps : List Piece} {rest : List Symbol} :
    p.before read = some (ps, rest) ↔ ∃ qs, read = some (qs, rest) ∧ p :: qs = ps := by
  cases read with
  | none => simp [before]
  | some found =>
    obtain ⟨qs, behind⟩ := found
    simp only [before, Option.map_some, Option.some.injEq, Prod.mk.injEq]
    constructor
    · rintro ⟨rfl, rfl⟩
      exact ⟨qs, ⟨rfl, rfl⟩, rfl⟩
    · rintro ⟨_, ⟨rfl, rfl⟩, rfl⟩
      exact ⟨rfl, rfl⟩

/-- The pieces of a string up to its closing quotation mark, and the rest. Controls have to be
escaped. -/
def spanString : List Symbol → Option (List Piece × List Symbol)
  | [] => none
  | none :: rest => Piece.stray.before (spanString rest)
  | some '"' :: rest => some ([], rest)
  | some '\\' :: some 'u' :: some a :: some b :: some c :: some d :: rest =>
    match unit? a b c d with
    | some p => p.before (spanString rest)
    | none => none
  | some '\\' :: some e :: rest =>
    match escaped? e with
    | some c => (Piece.char c).before (spanString rest)
    | none => none
  | some c :: rest =>
    if c = '\\' ∨ c.toNat < 0x20 then none else (Piece.char c).before (spanString rest)

/-- What is read of a string is shorter afterwards. -/
theorem length_of_spanString {s rest : List Symbol} {ps : List Piece}
    (h : spanString s = some (ps, rest)) : rest.length < s.length := by
  fun_induction spanString s generalizing ps <;> grind

/-- The characters of a string, if its pieces stand for a text: no stray byte, and surrogates
in pairs only. -/
def pieceChars? : List Piece → Option (List Char)
  | [] => some []
  | .char c :: ps => (pieceChars? ps).map (c :: ·)
  | .unit high :: .unit low :: ps =>
    if Text.isHighSurrogate high then
      if Text.isLowSurrogate low then
        (pieceChars? ps).map (Text.ofSurrogates high low :: ·)
      else none
    else if Text.isLowSurrogate high then none
    else (pieceChars? (.unit low :: ps)).map (.ofNat high :: ·)
  | .unit n :: ps =>
    if Text.isHighSurrogate n || Text.isLowSurrogate n then none
    else (pieceChars? ps).map (.ofNat n :: ·)
  | .stray :: _ => none

/-- The value of a string with given pieces. -/
def ofPieces (ps : List Piece) : Value :=
  .string ((pieceChars? ps).map .ofList)

/-! ## Words -/

/-- Blanks between tokens. -/
def isSpace (c : Char) : Bool :=
  c == ' ' || c == '\n' || c == '\t' || c == '\r'

/-- Whether a symbol can stand in a number, a truth value or `null`. -/
def isWordSymbol : Symbol → Bool
  | some c => !isSpace c && (Mark.ofChar? c).isNone && c != '"'
  | none => false

/-- The value that a word stands for. -/
def ofWord? (word : List Char) : Option Value :=
  if word = "null".toList then some .null
  else if word = "true".toList then some (.bool true)
  else if word = "false".toList then some (.bool false)
  else (Decimal.Numeral.ofJson? word).map .number

/-! ## Tokens -/

/-- The tokens of a text. -/
def tokens? (s : List Symbol) : Option (List Token) :=
  match s with
  | [] => some []
  | none :: _ => none
  | some c :: rest =>
    if isSpace c then tokens? rest
    else
      match Mark.ofChar? c with
      | some m => (tokens? rest).map (.mark m :: ·)
      | none =>
        if c = '"' then
          match _h : spanString rest with
          | some (ps, behind) => (tokens? behind).map (.scalar (ofPieces ps) :: ·)
          | none => none
        else
          match ofWord? (c :: (rest.takeWhile isWordSymbol).filterMap id) with
          | some v => (tokens? (rest.dropWhile isWordSymbol)).map (.scalar v :: ·)
          | none => none
termination_by s.length
decreasing_by
  · simp
  · simp
  · simpa using Nat.lt_succ_of_lt (length_of_spanString _h)
  · simpa using Nat.lt_succ_of_le (List.dropWhile_sublist _).length_le

end WidgetSkin.Json
