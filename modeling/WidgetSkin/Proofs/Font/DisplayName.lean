import Mathlib.Data.List.Induction
import WidgetSkin.Font.Cache
import WidgetSkin.Proofs.Success
import WidgetSkin.Proofs.Text.Blank

/-!
# Display names taken apart

A display name is a family, then style words with blanks in front of each, then blanks. The family
ends neither in a blank nor in a style word, and this fixes it together with the style. A word more
at the end of a name adds to the style and changes nothing else, so the display names of the faces
of a directory lead back to the faces.

## Main definitions

* `FaceName.Split` — a display name as a family, style words and blanks.

## Main statements

* `FaceName.ofDisplayName_append_ending` — one more word at the end.
* `FaceName.ofDisplayName_eq_iff` — the only family and style that a name can be split into.
* `FaceName.ofDisplayName_splits` — names taken apart, and the names of scanned faces.
-/

namespace WidgetSkin

open Text

namespace StyleWord

theorem reverse_ending (word : StyleWord) : word.ending.reverse =
    match word with
    | bold => ['d', 'l', 'o', 'B', ' ']
    | italic => ['c', 'i', 'l', 'a', 't', 'I', ' ']
    | regular => ['r', 'a', 'l', 'u', 'g', 'e', 'R', ' '] := by
  cases word <;> decide

theorem isBlank_of_getLast?_ending (word : StyleWord) {c : Char}
    (h : word.ending.getLast? = some c) : isBlank c = false := by
  cases word <;> (obtain rfl := Option.some.inj h; decide)

theorem ofList_ending (word : StyleWord) : String.ofList word.ending =
    match word with
    | bold => " Bold"
    | italic => " Italic"
    | regular => " Regular" := by
  cases word <;> exact String.ofList_toList

theorem ending_ne_nil (word : StyleWord) : word.ending ≠ [] := by cases word <;> decide

theorem addTo_comm (word other : StyleWord) (style : FontStyle) :
    word.addTo (other.addTo style) = other.addTo (word.addTo style) := by
  cases word <;> cases other <;> rfl

theorem addTo_bold_iff (word : StyleWord) (style : FontStyle) :
    (word.addTo style).bold = true ↔ word = bold ∨ style.bold = true := by
  cases word <;> simp [addTo]

theorem addTo_italic_iff (word : StyleWord) (style : FontStyle) :
    (word.addTo style).italic = true ↔ word = italic ∨ style.italic = true := by
  cases word <;> simp [addTo]

end StyleWord

namespace FaceName

/-! ## One word -/

/-- The words are told apart by their endings. -/
theorem backwardWord?_append (word : StyleWord) (backward : List Char) :
    backwardWord? (word.ending.reverse ++ backward) = some (word, backward) := by
  have hlength : word.ending.length = word.ending.reverse.length := (List.length_reverse ..).symm
  cases word <;> simp [backwardWord?, StyleWord.all, StyleWord.reverse_ending, hlength]

theorem backwardWord?_eq_some {backward rest : List Char} {word : StyleWord}
    (h : backwardWord? backward = some (word, rest)) : backward = word.ending.reverse ++ rest := by
  obtain ⟨w, -, hw⟩ := List.exists_of_findSome?_eq_some h
  split at hw
  · next hp =>
    obtain ⟨tail, rfl⟩ := List.isPrefixOf_iff_prefix.1 hp
    have hdrop : (w.ending.reverse ++ tail).drop w.ending.length = tail := by
      rw [← List.length_reverse, List.drop_left]
    rw [hdrop] at hw
    obtain ⟨rfl, rfl⟩ := Prod.mk.inj (Option.some.inj hw)
    rfl
  · cases hw

theorem backwardWord?_eq_none_iff {backward : List Char} :
    backwardWord? backward = none ↔ ∀ word : StyleWord, ¬ word.ending <:+ backward.reverse := by
  have hall : ∀ word : StyleWord, word ∈ StyleWord.all := by intro word; cases word <;> decide
  simp only [backwardWord?, List.findSome?_eq_none_iff, hall, true_imp_iff, ite_eq_right_iff,
    reduceCtorEq, imp_false, List.isPrefixOf_iff_prefix]
  exact forall_congr' fun word => not_congr (by rw [← List.reverse_prefix, List.reverse_reverse])

theorem stripBackward_of_none {backward : List Char} (style : FontStyle)
    (h : backwardWord? backward = none) : stripBackward style backward = (style, backward) := by
  rw [stripBackward]
  split
  · rfl
  · next hsome => simp [h] at hsome

theorem stripBackward_of_some {backward rest : List Char} {word : StyleWord} (style : FontStyle)
    (h : backwardWord? backward = some (word, rest)) :
    stripBackward style backward = stripBackward (word.addTo style) (rest.dropWhile isBlank) := by
  rw [stripBackward]
  split
  · next hnone => simp [h] at hnone
  · next hsome =>
    obtain ⟨rfl, rfl⟩ := Prod.mk.inj (Option.some.inj (h.symm.trans hsome))
    rfl

/-- A word that was there before the others is there with them. -/
theorem stripBackward_addTo (word : StyleWord) (style : FontStyle) (backward : List Char) :
    stripBackward (word.addTo style) backward =
      (word.addTo (stripBackward style backward).1, (stripBackward style backward).2) := by
  fun_induction stripBackward style backward with
  | case1 style backward h => rw [stripBackward_of_none _ h]
  | case2 style backward other rest h ih =>
    rw [stripBackward_of_some _ h, StyleWord.addTo_comm, ih]

/-! ## Ends of names -/

/-- A style word at the end of a name adds to the style and changes nothing else. -/
theorem ofDisplayName_append_ending (name : String) (word : StyleWord) :
    ofDisplayName (name ++ .ofList word.ending) =
      ⟨(ofDisplayName name).family, word.addTo (ofDisplayName name).style⟩ := by
  have htrim : trimEnd (name.toList ++ word.ending) = name.toList ++ word.ending := by
    refine trimEnd_eq_self fun c hc => word.isBlank_of_getLast?_ending ?_
    rwa [List.getLast?_append, Option.or_of_isSome (by simp [word.ending_ne_nil])] at hc
  have hword : backwardWord? (name.toList ++ word.ending).reverse =
      some (word, name.toList.reverse) := by
    rw [List.reverse_append, backwardWord?_append]
  simp only [ofDisplayName, String.toList_append, String.toList_ofList, htrim,
    stripBackward_of_some _ hword, ← reverse_trimEnd, stripBackward_addTo]

/-- Blanks at the end of a name do not matter. -/
theorem ofDisplayName_append_blanks (name : String) {blanks : List Char}
    (h : ∀ c ∈ blanks, isBlank c = true) :
    ofDisplayName (name ++ .ofList blanks) = ofDisplayName name := by
  simp only [ofDisplayName, String.toList_append, String.toList_ofList, trimEnd_append_blanks _ h]

/-- A name that ends neither in a blank nor in a style word is a family. -/
theorem ofDisplayName_eq_self {name : String}
    (hlast : ∀ c, name.toList.getLast? = some c → isBlank c = false)
    (hword : ∀ word : StyleWord, ¬ word.ending <:+ name.toList) :
    ofDisplayName name = ⟨name, {}⟩ := by
  have hnone : backwardWord? name.toList.reverse = none :=
    backwardWord?_eq_none_iff.2 (by simpa using hword)
  simp [ofDisplayName, trimEnd_eq_self hlast, stripBackward_of_none _ hnone]

/-! ## Names taken apart -/

/-- Style words one after the other, each with blanks in front. -/
def tailOf (blocks : List (List Char × StyleWord)) : List Char :=
  blocks.flatMap fun block => block.1 ++ block.2.ending

theorem tailOf_concat (blocks : List (List Char × StyleWord)) (blanks : List Char)
    (word : StyleWord) :
    tailOf (blocks ++ [(blanks, word)]) = tailOf blocks ++ blanks ++ word.ending := by
  simp [tailOf]

/-- A display name as a family, style words with blanks in front of each, and blanks. The family
ends neither in a blank nor in a style word. -/
structure Split (family name : String) (blocks : List (List Char × StyleWord))
    (blanks : List Char) : Prop where
  name_eq : name.toList = family.toList ++ tailOf blocks ++ blanks
  blank_of_mem_block : ∀ block ∈ blocks, ∀ c ∈ block.1, isBlank c = true
  blank_of_mem : ∀ c ∈ blanks, isBlank c = true
  last_not_blank : ∀ c, family.toList.getLast? = some c → isBlank c = false
  no_word : ∀ word : StyleWord, ¬ word.ending <:+ family.toList

/-- The words make up the style. -/
structure Styled (style : FontStyle) (words : List StyleWord) : Prop where
  bold_iff : style.bold = true ↔ .bold ∈ words
  italic_iff : style.italic = true ↔ .italic ∈ words

theorem Styled.concat {style : FontStyle} {words : List StyleWord} (h : Styled style words)
    (word : StyleWord) : Styled (word.addTo style) (words ++ [word]) := by
  constructor
  · rw [StyleWord.addTo_bold_iff, h.bold_iff, List.mem_append, List.mem_singleton, or_comm, eq_comm]
  · rw [StyleWord.addTo_italic_iff, h.italic_iff, List.mem_append, List.mem_singleton, or_comm,
      eq_comm]

theorem Styled.eq {style style' : FontStyle} {words : List StyleWord} (h : Styled style words)
    (h' : Styled style' words) : style = style' := by
  obtain ⟨bold, italic⟩ := style
  obtain ⟨bold', italic'⟩ := style'
  have hbold : bold = bold' := Bool.eq_iff_iff.2 (h.bold_iff.trans h'.bold_iff.symm)
  have hitalic : italic = italic' := Bool.eq_iff_iff.2 (h.italic_iff.trans h'.italic_iff.symm)
  rw [hbold, hitalic]

/-- However a name is split, its family and its style come out. -/
theorem Split.ofDisplayName_eq {family name : String} {blocks : List (List Char × StyleWord)}
    {blanks : List Char} (h : Split family name blocks blanks) :
    (ofDisplayName name).family = family ∧
      Styled (ofDisplayName name).style (blocks.map Prod.snd) := by
  obtain ⟨hname, hblocks, hblanks, hlast, hword⟩ := h
  have hjoin : name = .ofList (family.toList ++ tailOf blocks) ++ .ofList blanks := by
    rw [← String.toList_inj, hname]
    simp
  rw [hjoin, ofDisplayName_append_blanks _ hblanks]
  clear hjoin hname hblanks
  induction blocks using List.reverseRecOn with
  | nil =>
    have hfamily : String.ofList (family.toList ++ tailOf []) = family := by simp [tailOf]
    rw [hfamily, ofDisplayName_eq_self hlast hword]
    exact ⟨rfl, by simp, by simp⟩
  | append_singleton blocks block ih =>
    obtain ⟨inner, word⟩ := block
    have hblock : ∀ c ∈ inner, isBlank c = true := hblocks (inner, word) (by simp)
    obtain ⟨hfamily, hstyled⟩ := ih fun block hmem => hblocks block (List.mem_append_left _ hmem)
    have hsplit : String.ofList (family.toList ++ tailOf (blocks ++ [(inner, word)])) =
        .ofList (family.toList ++ tailOf blocks) ++ .ofList inner ++ .ofList word.ending := by
      rw [← String.toList_inj]
      simp [tailOf_concat]
    rw [hsplit, ofDisplayName_append_ending, ofDisplayName_append_blanks _ hblock, List.map_append]
    exact ⟨hfamily, hstyled.concat word⟩

/-- Every name can be split. -/
theorem exists_split (name : List Char) : ∃ family blocks blanks,
    Split family (.ofList name) blocks blanks := by
  obtain ⟨blanks, hname, hblanks⟩ := exists_trimEnd_append name
  cases hword : backwardWord? (trimEnd name).reverse with
  | none =>
    refine ⟨.ofList (trimEnd name), [], blanks, by simpa [tailOf] using hname, by simp, hblanks,
      fun c hc => ?_, ?_⟩
    · exact isBlank_of_getLast?_trimEnd name (by simpa using hc)
    · simpa using backwardWord?_eq_none_iff.1 hword
  | some pair =>
    obtain ⟨word, rest⟩ := pair
    have htrim : trimEnd name = rest.reverse ++ word.ending := by
      rw [← List.reverse_inj, backwardWord?_eq_some hword]
      simp
    have hshorter : rest.length < name.length := by
      have hpos := List.length_pos_iff.2 word.ending_ne_nil
      rw [hname, htrim, List.length_append, List.length_append, List.length_reverse]
      omega
    obtain ⟨family, blocks, inner, hsplit⟩ := exists_split rest.reverse
    refine ⟨family, blocks ++ [(inner, word)], blanks, ?_, ?_, hblanks, hsplit.last_not_blank,
      hsplit.no_word⟩
    · have hrest : rest.reverse = family.toList ++ tailOf blocks ++ inner := by
        simpa using hsplit.name_eq
      rw [String.toList_ofList, hname, htrim, hrest, tailOf_concat]
      simp
    · rw [List.forall_mem_append]
      exact ⟨hsplit.blank_of_mem_block, by simpa using hsplit.blank_of_mem⟩
termination_by name.length

/-- The family and the style of a name are the only ones that it can be split into. -/
theorem ofDisplayName_eq_iff {name : String} {f : FaceName} :
    ofDisplayName name = f ↔ ∃ blocks blanks, Split f.family name blocks blanks ∧
      Styled f.style (blocks.map Prod.snd) := by
  constructor
  · rintro rfl
    obtain ⟨family, blocks, blanks, hsplit⟩ := exists_split name.toList
    rw [String.ofList_toList] at hsplit
    obtain ⟨hfamily, hstyled⟩ := hsplit.ofDisplayName_eq
    exact ⟨blocks, blanks, hfamily ▸ hsplit, hstyled⟩
  · rintro ⟨blocks, blanks, hsplit, hstyled⟩
    obtain ⟨hfamily, hstyled'⟩ := hsplit.ofDisplayName_eq
    calc ofDisplayName name
      _ = ⟨(ofDisplayName name).family, (ofDisplayName name).style⟩ := rfl
      _ = f := by rw [hfamily, hstyled'.eq hstyled]

/-! ## Faces -/

/-- The display name of a face leads back to it if its family is one. -/
theorem ofDisplayName_displayName {f : FaceName} (h : ofDisplayName f.family = ⟨f.family, {}⟩) :
    ofDisplayName f.displayName = f := by
  have hbold := ofDisplayName_append_ending f.family .bold
  have hitalic := ofDisplayName_append_ending f.family .italic
  have hboth := ofDisplayName_append_ending (f.family ++ " Bold") .italic
  simp only [StyleWord.ofList_ending, StyleWord.addTo] at hbold hitalic hboth
  rw [hbold] at hboth
  rw [h] at hbold hitalic hboth
  obtain ⟨family, bold, italic⟩ := f
  cases bold <;> cases italic
  · simpa [displayName] using h
  · simpa [displayName] using hitalic
  · simpa [displayName] using hbold
  · simpa [displayName] using hboth

end FaceName

/-- An entry of a directory of fonts is one for the face in its file. -/
theorem FontCache.exists_face_of_mem_ofDirectory {t : FileTree} {directory : String}
    {entry : FontEntry} (h : entry ∈ (ofDirectory t directory).entries) :
    ∃ content face, t.read (Path.join directory entry.fileName) = .ok content ∧
      Font.face? content = some face ∧ entry.displayName = face.displayName := by
  obtain ⟨fileName, -, hentry⟩ := List.mem_filterMap.1 h
  obtain ⟨content, hcontent, hread⟩ := Option.bind_eq_some_iff.1 hentry
  obtain ⟨face, hface, heq⟩ := Option.bind_eq_some_iff.1 hread
  obtain rfl := Option.some.inj heq
  exact ⟨content, face, toOption_eq_some_iff.1 hcontent, hface, rfl⟩

/-- A display name is split in one way into a family and a style, of which one more word at the end
only changes the style. So the display names of the faces of a family that ends in no style word
lead back to these faces, also those in the index of a directory. -/
theorem FaceName.ofDisplayName_splits :
    (∀ name f, ofDisplayName name = f ↔ ∃ blocks blanks,
      Split f.family name blocks blanks ∧ Styled f.style (blocks.map Prod.snd)) ∧
    (∀ name word, ofDisplayName (name ++ .ofList (StyleWord.ending word)) =
      ⟨(ofDisplayName name).family, word.addTo (ofDisplayName name).style⟩) ∧
    (∀ f : FaceName, ofDisplayName f.family = ⟨f.family, {}⟩ → ofDisplayName f.displayName = f) ∧
    ∀ t directory, ∀ entry ∈ (FontCache.ofDirectory t directory).entries, ∃ content face,
      t.read (Path.join directory entry.fileName) = .ok content ∧
      Font.face? content = some face ∧ entry.displayName = face.displayName ∧
      (ofDisplayName face.family = ⟨face.family, {}⟩ → ofDisplayName entry.displayName = face) := by
  refine ⟨fun _ _ => ofDisplayName_eq_iff, ofDisplayName_append_ending,
    fun _ => ofDisplayName_displayName, fun t directory entry hentry => ?_⟩
  obtain ⟨content, face, hread, hface, hname⟩ := FontCache.exists_face_of_mem_ofDirectory hentry
  exact ⟨content, face, hread, hface, hname, fun h => hname ▸ ofDisplayName_displayName h⟩

/-- A directory with the file of one slanted face. -/
def slantedFonts : FileTree where
  entries := [(["fonts"], .directory), (["fonts", "Fam.ttf"], .file ⟨#[
    -- the tables `name`, from 44 on, and `post`, from 80 on
    0, 1, 0, 0, 0, 2, 0, 0, 0, 0, 0, 0,
    110, 97, 109, 101, 0, 0, 0, 0, 0, 0, 0, 44, 0, 0, 0, 36,
    112, 111, 115, 116, 0, 0, 0, 0, 0, 0, 0, 80, 0, 0, 0, 8,
    -- two English names, for the family and for printers, with one text
    0, 0, 0, 2, 0, 30,
    0, 3, 0, 1, 4, 9, 0, 1, 0, 6, 0, 0,
    0, 3, 0, 1, 4, 9, 0, 6, 0, 6, 0, 0,
    0, 70, 0, 97, 0, 109,
    0, 0, 0, 0, 0, 0, 0, 1]⟩)]
  workDir := []

/-- The face in the directory is found again from its display name, and with one more word at the
end of the name another face of its family. -/
theorem FaceName.ofDisplayName_splits_slantedFonts :
    (FontCache.ofDirectory slantedFonts "fonts").entries = [⟨"Fam Italic", "Fam.ttf"⟩] ∧
    ofDisplayName "Fam" = ⟨"Fam", {}⟩ ∧
    (∃ content, slantedFonts.read "fonts/Fam.ttf" = .ok content ∧
      Font.face? content = some (ofDisplayName "Fam Italic")) ∧
    ofDisplayName "Fam Italic" = ⟨"Fam", ⟨false, true⟩⟩ ∧
    ofDisplayName ("Fam Italic" ++ .ofList StyleWord.bold.ending) = ⟨"Fam", ⟨true, true⟩⟩ := by
  obtain ⟨-, hword, hface, hscanned⟩ := ofDisplayName_splits
  have hentries : (FontCache.ofDirectory slantedFonts "fonts").entries =
      [⟨"Fam Italic", "Fam.ttf"⟩] := by
    decide +kernel
  have hfamily : ofDisplayName "Fam" = ⟨"Fam", {}⟩ := by decide +kernel
  have hitalic : ofDisplayName "Fam Italic" = ⟨"Fam", ⟨false, true⟩⟩ := by
    simpa [displayName] using hface ⟨"Fam", ⟨false, true⟩⟩ hfamily
  have htold : ((slantedFonts.read "fonts/Fam.ttf").toOption.bind Font.face?).map FaceName.family =
      some "Fam" := by
    decide +kernel
  obtain ⟨content, face, hread, hread?, -, hback⟩ :=
    hscanned slantedFonts "fonts" ⟨"Fam Italic", "Fam.ttf"⟩ (by rw [hentries]; simp)
  have hpath : Path.join "fonts" "Fam.ttf" = "fonts/Fam.ttf" := by decide +kernel
  rw [hpath] at hread
  rw [hread] at htold
  have hname : face.family = "Fam" := by simpa [Except.toOption, hread?] using htold
  refine ⟨hentries, hfamily, ⟨content, hread, ?_⟩, hitalic, ?_⟩
  · rw [hread?, hback (by rw [hname, hfamily])]
  · rw [hword, hitalic]
    rfl

end WidgetSkin
