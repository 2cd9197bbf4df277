import WidgetSkin.Text.Printable

/-!
# Escaped text

The form in which a message or a description shows a text: backslash escapes for the common
controls, the backslash and the quotation marks, `\u` with a braced hexadecimal code for what
cannot be printed, everything else as it is. A combining character is escaped where it has
nothing to attach to.

## Main definitions

* `EscapeStyle` — what differs between the places where an escaped text is shown.
* `escape` — the escaped text.
* `quote` — the escaped text between quotation marks.
-/

namespace WidgetSkin.Text

/-- What differs between the places where an escaped text is shown. -/
structure EscapeStyle where
  /-- The quotation marks that take a backslash. -/
  quotes : List Char
  /-- Whether a combining character is escaped everywhere, or only at the beginning. -/
  combiningAnywhere : Bool

namespace EscapeStyle

/-- Inside an error message. -/
def message : EscapeStyle := ⟨['"', '\''], false⟩

/-- In the description of a state. -/
def description : EscapeStyle := ⟨['"'], true⟩

end EscapeStyle

/-- The code point of `c` in lower-case hexadecimal digits between `\u\x7b` and a brace. -/
def codePointEscape (c : Char) : List Char :=
  "\\u\x7b".toList ++ Nat.toDigits 16 c.toNat ++ ['\x7d']

/-- One character escaped; `combining` says whether a combining character is. -/
def escapeChar (quotes : List Char) (combining : Bool) (c : Char) : List Char :=
  match c with
  | '\x00' => ['\\', '0']
  | '\t' => ['\\', 't']
  | '\r' => ['\\', 'r']
  | '\n' => ['\\', 'n']
  | '\\' => ['\\', '\\']
  | _ =>
    if quotes.contains c then ['\\', c]
    else if (combining && isCombining c) || !isPrintable c then codePointEscape c
    else [c]

/-- A text escaped for the place that `style` describes. -/
def escape (style : EscapeStyle) (s : String) : String :=
  match s.toList with
  | [] => ""
  | c :: cs =>
    .ofList (escapeChar style.quotes true c ++
      cs.flatMap (escapeChar style.quotes style.combiningAnywhere))

/-- A text escaped and set between double quotation marks. -/
def quote (style : EscapeStyle) (s : String) : String :=
  "\"" ++ escape style s ++ "\""

end WidgetSkin.Text
