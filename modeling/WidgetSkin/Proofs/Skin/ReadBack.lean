import WidgetSkin.Proofs.Text.Lines
import WidgetSkin.Skin.Document

/-!
# Reading a skin file back

Sections whose names and keys keep to the grammar of the file are read back exactly from the
text of a document. Values do not matter: their line breaks are written as marks.

## Main definitions

* `Section.encoded` — a section with its values as they are written.
* `Section.Unbroken` — a section whose lines are not broken.
* `Section.isKey`, `Section.Readable` — what names and keys have to keep to.

## Main statements

* `Document.splitOn_render` — the lines of a document are those of its sections.
* `Document.readLines_render` — the sections of a document are read back from its text.
-/

namespace WidgetSkin

namespace Section

/-- The section with its values as they are written. -/
def encoded (s : Section) : Section :=
  ⟨s.name, s.entries.map fun entry => (entry.1, Text.LineBreak.encode entry.2)⟩

/-- A section whose name and keys stand on one line each. -/
structure Unbroken (s : Section) : Prop where
  name_isSingleLine : Text.isSingleLine s.name = true
  keys_isSingleLine : ∀ entry ∈ s.entries, Text.isSingleLine entry.1 = true

/-- Whether a text can stand in front of the equals sign of an entry. -/
def isKey (key : String) : Bool :=
  key.toList.head? != some '[' && !key.toList.contains '=' && Text.isSingleLine key

/-- A section whose name and keys keep to the grammar of the file. -/
structure Readable (s : Section) : Prop where
  name_isSingleLine : Text.isSingleLine s.name = true
  keys_isKey : ∀ entry ∈ s.entries, isKey entry.1 = true

theorem isSingleLine_of_isKey {key : String} (h : isKey key = true) :
    Text.isSingleLine key = true := by
  simp only [isKey, Bool.and_eq_true] at h
  exact h.2

theorem Readable.unbroken {s : Section} (h : s.Readable) : s.Unbroken where
  name_isSingleLine := h.name_isSingleLine
  keys_isSingleLine entry hentry := isSingleLine_of_isKey (h.keys_isKey entry hentry)

/-! ## Entries -/

theorem toList_entryLine (entry : String × String) :
    (entryLine entry).toList =
      entry.1.toList ++ '=' :: (Text.LineBreak.encode entry.2).toList := by
  simp [entryLine]

@[simp] theorem isSingleLine_entryLine (entry : String × String) :
    Text.isSingleLine (entryLine entry) = Text.isSingleLine entry.1 := by
  have hsign : Text.isSingleLine "=" = true := by decide
  simp [entryLine, hsign]

/-- An entry line never opens a section and is never empty. -/
theorem head?_entryLine {entry : String × String} (h : isKey entry.1 = true) :
    ∃ c, c ≠ '[' ∧ (entryLine entry).toList.head? = some c := by
  rw [toList_entryLine]
  simp only [isKey, Bool.and_eq_true] at h
  cases hkey : entry.1.toList with
  | nil => exact ⟨'=', by decide, rfl⟩
  | cons c cs => exact ⟨c, by simpa [hkey] using h.1.1, rfl⟩

/-- The first equals sign of an entry line is the one behind the key. -/
theorem readEntry_entryLine {entry : String × String} (h : isKey entry.1 = true) :
    readEntry (entryLine entry).toList = (entry.1, Text.LineBreak.encode entry.2) := by
  have hkey : ∀ c ∈ entry.1.toList, decide (c ≠ '=') = true := by
    simp only [isKey, Bool.and_eq_true] at h
    have hmem : '=' ∉ entry.1.toList := by simpa using h.1.2
    intro c hc
    simpa using fun heq : c = '=' => hmem (heq ▸ hc)
  rw [toList_entryLine, readEntry, List.takeWhile_append_of_pos hkey,
    List.dropWhile_append_of_pos hkey]
  simp

/-! ## Lines -/

@[simp] theorem readLines_blank (rest : List (List Char)) :
    readLines ([] :: rest) = readLines rest := rfl

theorem readLines_bracket (cs : List Char) (rest : List (List Char)) :
    readLines (('[' :: cs) :: rest) =
      ([], ⟨readName ('[' :: cs), (readLines rest).1⟩ :: (readLines rest).2) := rfl

theorem readLines_of_ne_bracket {c : Char} (hc : c ≠ '[') (cs : List Char)
    (rest : List (List Char)) :
    readLines ((c :: cs) :: rest) =
      (readEntry (c :: cs) :: (readLines rest).1, (readLines rest).2) := by
  unfold readLines
  rw [List.foldr_cons]
  split
  next heq =>
    rw [heq]
    split
    · next hnil => cases hnil
    · next hbracket => exact absurd (List.cons.inj hbracket).1 hc
    · rfl

/-- A line in brackets opens a section and takes the entries behind it. -/
theorem readLines_name (name : String) (rest : List (List Char)) :
    readLines (("[" ++ name ++ "]").toList :: rest) =
      ([], ⟨name, (readLines rest).1⟩ :: (readLines rest).2) := by
  have hline : ("[" ++ name ++ "]").toList = '[' :: (name.toList ++ [']']) := by simp
  have hname : readName ('[' :: (name.toList ++ [']'])) = name := by simp [readName]
  rw [hline, readLines_bracket, hname]

/-- A line that is no name waits for its section as an entry. -/
theorem readLines_entry {entry : String × String} (h : isKey entry.1 = true)
    (rest : List (List Char)) :
    readLines ((entryLine entry).toList :: rest) =
      ((entry.1, Text.LineBreak.encode entry.2) :: (readLines rest).1, (readLines rest).2) := by
  obtain ⟨c, hc, hhead⟩ := head?_entryLine h
  obtain ⟨cs, hline⟩ := List.head?_eq_some_iff.1 hhead
  rw [← readEntry_entryLine h, hline, readLines_of_ne_bracket hc]

theorem readLines_entries {entries : List (String × String)}
    (h : ∀ entry ∈ entries, isKey entry.1 = true) (rest : List (List Char)) :
    readLines (entries.map (fun entry => (entryLine entry).toList) ++ rest) =
      (entries.map (fun entry => (entry.1, Text.LineBreak.encode entry.2)) ++
        (readLines rest).1, (readLines rest).2) := by
  induction entries with
  | nil => rfl
  | cons entry entries ih =>
    rw [List.map_cons, List.cons_append, readLines_entry (h entry List.mem_cons_self),
      ih fun e he => h e (List.mem_cons_of_mem _ he)]
    rfl

/-- A section that is followed by another or by the end of the text is read back. -/
theorem readLines_lines {s : Section} (h : s.Readable) {rest : List (List Char)}
    (hrest : (readLines rest).1 = []) :
    readLines (s.lines.map String.toList ++ rest) = ([], s.encoded :: (readLines rest).2) := by
  have hlines : s.lines.map String.toList ++ rest =
      ("[" ++ s.name ++ "]").toList ::
        (s.entries.map (fun entry => (entryLine entry).toList) ++ [] :: rest) := by
    simp [lines]
  rw [hlines, readLines_name, readLines_entries h.keys_isKey, readLines_blank, hrest,
    List.append_nil]
  rfl

/-- Sections in a row are read back, all of them and in their order. -/
theorem readLines_flatMap_lines {sections : List Section} (h : ∀ s ∈ sections, s.Readable) :
    readLines (sections.flatMap (fun s => s.lines.map String.toList) ++ [[]]) =
      ([], sections.map encoded) := by
  induction sections with
  | nil => rfl
  | cons s sections ih =>
    -- No entry is left over from the rest, so the section takes just its own.
    have hrest := ih fun t ht => h t (List.mem_cons_of_mem _ ht)
    rw [List.flatMap_cons, List.append_assoc,
      readLines_lines (h s List.mem_cons_self) (by rw [hrest]), hrest]
    rfl

/-- No line of a section is broken. -/
theorem isSingleLine_of_mem_lines {s : Section} (h : s.Unbroken) {line : String}
    (hline : line ∈ s.lines) : Text.isSingleLine line = true := by
  have hbrackets : Text.isSingleLine "[" = true ∧ Text.isSingleLine "]" = true := by decide
  simp only [lines, List.mem_cons, List.mem_append, List.mem_map, List.not_mem_nil,
    or_false] at hline
  rcases hline with rfl | ⟨entry, hentry, rfl⟩ | rfl
  · simp [hbrackets, h.name_isSingleLine]
  · simpa using h.keys_isSingleLine entry hentry
  · decide

/-- The only empty line of a section is the one that ends it. -/
theorem lines_eq_append_blank {s : Section} (h : s.Readable) :
    ∃ body, s.lines = body ++ [""] ∧ "" ∉ body := by
  refine ⟨("[" ++ s.name ++ "]") :: s.entries.map entryLine, rfl, ?_⟩
  rw [List.mem_cons, List.mem_map, not_or]
  refine ⟨fun hname => ?_, ?_⟩
  · simpa using congrArg String.toList hname
  · rintro ⟨entry, hentry, hline⟩
    obtain ⟨c, -, hhead⟩ := head?_entryLine (h.keys_isKey entry hentry)
    simp [hline] at hhead

end Section

namespace Document

theorem toList_render (doc : Document) :
    doc.render.toList =
      (doc.sections.flatMap fun s => s.lines.map String.toList).flatMap (· ++ ['\n']) := by
  simp only [render, String.toList_join, List.flatMap_map, List.flatMap_assoc]
  congr 1
  funext s
  simp [Section.render, String.toList_join, List.flatMap_map]

/-- The lines of a document are those of its sections, and nothing follows the last one. -/
theorem splitOn_render_of_unbroken {doc : Document} (h : ∀ s ∈ doc.sections, s.Unbroken) :
    doc.render.toList.splitOn '\n' =
      (doc.sections.flatMap fun s => s.lines.map String.toList) ++ [[]] := by
  rw [toList_render, Text.splitOn_flatMap_lineFeed]
  intro line hline
  obtain ⟨s, hs, hline⟩ := List.mem_flatMap.1 hline
  obtain ⟨text, htext, rfl⟩ := List.mem_map.1 hline
  exact (Text.isSingleLine_iff.1 (Section.isSingleLine_of_mem_lines (h s hs) htext)).1

/-- A document holds no carriage return. -/
theorem carriageReturn_not_mem_render_of_unbroken {doc : Document}
    (h : ∀ s ∈ doc.sections, s.Unbroken) : '\r' ∉ doc.render.toList := by
  rw [toList_render]
  intro hmem
  obtain ⟨line, hline, hmem⟩ := List.mem_flatMap.1 hmem
  obtain ⟨s, hs, hline⟩ := List.mem_flatMap.1 hline
  obtain ⟨text, htext, rfl⟩ := List.mem_map.1 hline
  have hsingle := Text.isSingleLine_iff.1 (Section.isSingleLine_of_mem_lines (h s hs) htext)
  simp [hsingle.2] at hmem

section Readable

variable {doc : Document} (h : ∀ s ∈ doc.sections, s.Readable)
include h

theorem splitOn_render :
    doc.render.toList.splitOn '\n' =
      (doc.sections.flatMap fun s => s.lines.map String.toList) ++ [[]] :=
  splitOn_render_of_unbroken fun s hs => (h s hs).unbroken

theorem carriageReturn_not_mem_render : '\r' ∉ doc.render.toList :=
  carriageReturn_not_mem_render_of_unbroken fun s hs => (h s hs).unbroken

/-- The sections of a document are read back from its text, with no entry left over. -/
theorem readLines_render :
    Section.readLines (doc.render.toList.splitOn '\n') =
      ([], doc.sections.map Section.encoded) := by
  rw [splitOn_render h, Section.readLines_flatMap_lines h]

end Readable

end Document

end WidgetSkin
