/-!
# Line breaks inside a value

A value of a skin file stands on one line, so its line breaks are written as the engine's
variable `#CRLF#`. A carriage return followed by a line feed is one break.

## Main definitions

* `LineBreak.encode` — break pairs first, then the single breaks that are left.
* `LineBreak.scan` — the same in one pass from left to right.
* `isSingleLine` — whether a text holds no line break.
-/

namespace WidgetSkin.Text

/-- The two characters that end a line. -/
def isLineEnd (c : Char) : Bool :=
  c == '\n' || c == '\r'

/-- Whether a text stands on one line. -/
def isSingleLine (s : String) : Bool :=
  !s.toList.any isLineEnd

namespace LineBreak

/-- The engine variable that shows as a line break. -/
def mark : List Char :=
  "#CRLF#".toList

/-- Write every carriage return that is followed by a line feed, with it, as one mark. -/
def encodePairs : List Char → List Char
  | [] => []
  | '\r' :: '\n' :: cs => mark ++ encodePairs cs
  | c :: cs => c :: encodePairs cs

/-- Write every line end as a mark. -/
def encodeSingles (cs : List Char) : List Char :=
  cs.flatMap fun c => if isLineEnd c then mark else [c]

/-- Write every line break of `s` as a mark. -/
def encode (s : String) : String :=
  .ofList (encodeSingles (encodePairs s.toList))

/-- Write every line break as a mark in one pass: a pair counts once. -/
def scan : List Char → List Char
  | [] => []
  | '\r' :: '\n' :: cs => mark ++ scan cs
  | c :: cs => (if isLineEnd c then mark else [c]) ++ scan cs

end LineBreak

end WidgetSkin.Text
