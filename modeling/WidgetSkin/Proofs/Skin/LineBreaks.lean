import WidgetSkin.Proofs.Skin.ReadBack
import WidgetSkin.Skin.Meter

/-!
# Line breaks in a skin file

Writing the pairs of a value as marks and then the breaks that are left comes to the same as one
walk over the value, because a mark holds no line end. A value that is cut in two is written like
its parts, except where the cut parts a pair. What is written holds no break any more, so that
the words of a text may be written before the section is.

## Main definitions

* `Text.LineBreak.PartsPair` — the cut between two texts parts a pair.

## Main statements

* `Text.LineBreak.encodeSingles_encodePairs` — two replacements are one walk.
* `Text.LineBreak.scan_append_iff` — a text is written like its parts unless they part a pair.
* `Text.LineBreak.encode_scans_once` — the laws of written values.
-/

namespace WidgetSkin

namespace Text.LineBreak

/-! ## One walk -/

theorem encodeSingles_append (as bs : List Char) :
    encodeSingles (as ++ bs) = encodeSingles as ++ encodeSingles bs :=
  List.flatMap_append

theorem encodeSingles_mark : encodeSingles mark = mark := by decide

/-- The breaks that are left when the pairs have been written are those between them. -/
theorem encodeSingles_encodePairs (cs : List Char) : encodeSingles (encodePairs cs) = scan cs := by
  fun_induction encodePairs cs with
  | case1 => rfl
  | case2 cs ih => rw [encodeSingles_append, encodeSingles_mark, ih, scan]
  | case3 c cs hpair ih =>
    rw [scan.eq_3 c cs hpair, ← ih, ← List.singleton_append, encodeSingles_append]
    simp [encodeSingles]

theorem toList_encode (s : String) : (encode s).toList = scan s.toList := by
  rw [encode, String.toList_ofList, encodeSingles_encodePairs]

/-! ## Cuts -/

/-- The cut between two texts parts a pair. -/
def PartsPair (as bs : List Char) : Prop :=
  as.getLast? = some '\r' ∧ bs.head? = some '\n'

theorem not_partsPair_nil (bs : List Char) : ¬ PartsPair [] bs := by simp [PartsPair]

theorem partsPair_cons_cons {c d : Char} {cs bs : List Char} :
    PartsPair (c :: d :: cs) bs ↔ PartsPair (d :: cs) bs := by
  rw [PartsPair, List.getLast?_cons_cons, PartsPair]

/-- A character that does not begin a pair is written on its own. -/
theorem scan_cons {c : Char} {cs : List Char} (h : ¬ PartsPair [c] cs) :
    scan (c :: cs) = scan [c] ++ scan cs := by
  have hpair : ∀ rest, c = '\r' → cs = '\n' :: rest → False := by
    rintro rest rfl rfl
    exact h ⟨rfl, rfl⟩
  have hsingle : ∀ rest, c = '\r' → ([] : List Char) = '\n' :: rest → False := by simp
  rw [scan.eq_3 c cs hpair, scan.eq_3 c [] hsingle, scan, List.append_nil]

theorem scan_append {as bs : List Char} (h : ¬ PartsPair as bs) :
    scan (as ++ bs) = scan as ++ scan bs := by
  fun_induction scan as with
  | case1 => rfl
  | case2 cs ih =>
    have hrest : ¬ PartsPair cs bs := by
      cases cs with
      | nil => exact not_partsPair_nil bs
      | cons d ds => rwa [partsPair_cons_cons, partsPair_cons_cons] at h
    rw [List.cons_append, List.cons_append, scan, ih hrest, List.append_assoc]
  | case3 c cs hpair ih =>
    cases cs with
    | nil => rw [List.singleton_append, scan_cons h, scan.eq_3 c [] hpair]
    | cons d ds =>
      have hcut : ¬ PartsPair [c] (d :: (ds ++ bs)) := by
        rintro ⟨hc, hd⟩
        exact hpair ds (by simpa using hc) (by simpa using hd)
      rw [List.cons_append, List.cons_append, scan_cons hcut, ← List.cons_append,
        ih (mt partsPair_cons_cons.2 h), ← List.append_assoc]
      simp [scan]

/-- A text is written like its parts unless they part a pair, which is then written as one mark
instead of two. -/
theorem scan_append_iff {as bs : List Char} :
    scan (as ++ bs) = scan as ++ scan bs ↔ ¬ PartsPair as bs := by
  refine ⟨fun heq hparts => ?_, scan_append⟩
  obtain ⟨before, rfl⟩ := List.getLast?_eq_some_iff.1 hparts.1
  obtain ⟨after, rfl⟩ := List.head?_eq_some_iff.1 hparts.2
  have hbefore : ∀ cs, ¬ PartsPair before ('\r' :: cs) := by simp [PartsPair]
  rw [List.append_assoc, List.singleton_append, scan_append (hbefore _),
    scan_append (hbefore _)] at heq
  have hlength := congrArg List.length heq
  simp [scan, mark, isLineEnd] at hlength

theorem encode_append_iff {a b : String} :
    encode (a ++ b) = encode a ++ encode b ↔ ¬ PartsPair a.toList b.toList := by
  rw [← String.toList_inj, String.toList_append, toList_encode, toList_encode, toList_encode,
    String.toList_append, scan_append_iff]

/-! ## Values in a section -/

/-- What has been written is written as it is. -/
@[simp] theorem encode_encode (s : String) : encode (encode s) = encode s :=
  encode_eq_self (isSingleLine_encode s)

end Text.LineBreak

theorem Section.entryLine_encode (key value : String) :
    entryLine (key, Text.LineBreak.encode value) = entryLine (key, value) := by
  simp [entryLine]

/-- A section looks the same with one of its values written before. -/
theorem Section.render_encode_last (name key value : String) (entries : List (String × String)) :
    render ⟨name, entries ++ [(key, Text.LineBreak.encode value)]⟩ =
      render ⟨name, entries ++ [(key, value)]⟩ := by
  simp [render, lines, entryLine_encode]

/-- A text without a measure looks as if its words were written with the section only. -/
theorem MeterContext.render_textBlock (c : MeterContext) {layer : LayerSnapshot}
    (content : TextContent) (h : layer.catalogMeasure? = none) :
    ∃ b, c.textBlock layer content = .ok b ∧ b.measures = [] ∧
      b.meter.toSection.render =
        (unmeasured layer (c.textOptions layer content content.text)).meter.toSection.render := by
  refine ⟨_, by rw [textBlock, h], rfl, ?_⟩
  exact Section.render_encode_last layer.name "Text" content.text
    (("Meter", (MeterType.ofKind layer.kind).keyword) :: (c.textOptions layer content "").dropLast)

/-- The two replacements that write the line breaks of a value come to one walk over it. What is
written stands on one line and is written as it is, in a section and in the words of a text, and a
value is written like its parts exactly if these do not part a pair. -/
theorem Text.LineBreak.encode_scans_once :
    (∀ value, (encode value).toList = scan value.toList ∧ OnOneLine (encode value) ∧
      encode (encode value) = encode value ∧
      ∀ key, Section.entryLine (key, encode value) = Section.entryLine (key, value)) ∧
    (∀ (c : MeterContext) (layer : LayerSnapshot) (content : TextContent),
      layer.catalogMeasure? = none → ∃ b, c.textBlock layer content = .ok b ∧ b.measures = [] ∧
        b.meter.toSection.render = (MeterContext.unmeasured layer
          (c.textOptions layer content content.text)).meter.toSection.render) ∧
    ∀ a b, encode (a ++ b) = encode a ++ encode b ↔ ¬ PartsPair a.toList b.toList :=
  ⟨fun value => ⟨toList_encode value, onOneLine_iff.2 (isSingleLine_encode value),
      encode_encode value, fun key => Section.entryLine_encode key value⟩,
    fun c _ content h => c.render_textBlock content h, fun _ _ => encode_append_iff⟩

/-- Words on lines that end in three ways. -/
def brokenWords : TextContent where
  text := "One\r\nTwo\r\r\n\nThree"
  fontName := "Arial"
  fontSize := 24
  fill := { color := "#000000" }

/-- A text layer with broken words, at a corner of the canvas. -/
def brokenNote : LayerSnapshot where
  name := "Note"
  payload := .text brokenWords
  geometry := ⟨⟨0, 0⟩, ⟨100, 20⟩, .unit, 0⟩

/-- Four breaks between three words; the cut behind a carriage return parts the first pair. -/
theorem Text.LineBreak.encode_scans_once_of_brokenNote :
    brokenNote.catalogMeasure? = none ∧
    (encode brokenWords.text).toList = "One#CRLF#Two#CRLF##CRLF##CRLF#Three".toList ∧
    (∃ b, MeterContext.textBlock ⟨⟨0, 0⟩, {}, {}⟩ brokenNote brokenWords = .ok b ∧
      b.measures = [] ∧
      b.meter.toSection.render = (MeterContext.unmeasured brokenNote
        (MeterContext.textOptions ⟨⟨0, 0⟩, {}, {}⟩ brokenNote brokenWords
          brokenWords.text)).meter.toSection.render) ∧
    encode ("One\r" ++ "\nTwo") ≠ encode "One\r" ++ encode "\nTwo" := by
  have hnone : brokenNote.catalogMeasure? = none := by decide
  obtain ⟨hvalues, htexts, hcuts⟩ := encode_scans_once
  refine ⟨hnone, ?_, htexts _ brokenNote brokenWords hnone, fun heq => ?_⟩
  · rw [(hvalues brokenWords.text).1]
    decide
  · exact (hcuts _ _).1 heq ⟨by decide, by decide⟩

end WidgetSkin
