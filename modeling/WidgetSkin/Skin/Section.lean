import WidgetSkin.Text.LineBreak

/-!
# Sections of a skin file

A skin file is a sequence of sections. A section is a line with its name in brackets, a line
for each of its entries, and an empty line.

## Main definitions

* `Section` — a name with ordered entries.
* `Section.lines`, `Section.render` — its lines and its text.
* `Section.readAll` — the sections that a text is made of.
-/

namespace WidgetSkin

/-- A block of a skin file: a name with keys and values in order. -/
structure Section where
  name : String
  entries : List (String × String)
deriving DecidableEq

namespace Section

/-- The line of an entry. Line breaks in the value are written as marks. -/
def entryLine (entry : String × String) : String :=
  entry.1 ++ "=" ++ Text.LineBreak.encode entry.2

/-- The lines of a section. -/
def lines (s : Section) : List String :=
  ("[" ++ s.name ++ "]") :: (s.entries.map entryLine ++ [""])

/-- The text of a section. -/
def render (s : Section) : String :=
  String.join (s.lines.map (· ++ "\n"))

/-! ## Reading -/

/-- The key and the value of a line, cut at the first equals sign. -/
def readEntry (line : List Char) : String × String :=
  (.ofList (line.takeWhile (· ≠ '=')), .ofList ((line.dropWhile (· ≠ '=')).drop 1))

/-- The name in the brackets of a line that opens a section. -/
def readName (line : List Char) : String :=
  .ofList (line.drop 1).dropLast

/-- The sections of a sequence of lines, read from the last line to the first: the entries
that wait for their section, and the sections behind them. -/
def readLines (lines : List (List Char)) : List (String × String) × List Section :=
  lines.foldr (fun line (entries, sections) =>
    match line with
    | [] => (entries, sections)
    | '[' :: _ => ([], ⟨readName line, entries⟩ :: sections)
    | _ => (readEntry line :: entries, sections)) ([], [])

/-- The sections that a text is made of. A line that begins with a bracket opens a section, and
every other line that is not empty is an entry. -/
def readAll (text : String) : List Section :=
  (readLines (text.toList.splitOn '\n')).2

end Section

end WidgetSkin
