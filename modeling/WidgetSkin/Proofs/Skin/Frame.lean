import WidgetSkin.Proofs.Skin.Emission
import WidgetSkin.Proofs.Skin.ReadBack
import WidgetSkin.Proofs.Skin.Validation

/-!
# The structure of a compiled skin

The structure of a skin file is the sequence of its sections with their names and keys. It is
given by the kinds, names and measures of the layers that appear, and a compilation that succeeds
writes a text from which it is read back. No text, colour, font, path or field of the metadata
has a part in it.

## Main definitions

* `Frame` — a section without its values.
* `skinFrames` — the structure of a skin.
* `Frame.Sound` — what a frame needs so that its section is read back.

## Main statements

* `documentOf_frames` — a document has the structure of its layers.
* `skinFrames_sound` — rules for layers make all frames sound.
* `compile_readLines` — a compiled skin is read back exactly.
-/

namespace WidgetSkin

/-! ## Frames -/

/-- A section without its values. -/
structure Frame where
  name : String
  keys : List String
deriving DecidableEq

/-- The section without its values. -/
def Section.frame (s : Section) : Frame :=
  ⟨s.name, s.entries.map Prod.fst⟩

@[simp] theorem Section.frame_encoded (s : Section) : s.encoded.frame = s.frame := by
  simp [encoded, frame, Function.comp_def]

/-- Sections that are read back with encoded values keep their frames. -/
theorem Section.frame_readAll {text : String} {sections : List Section}
    (h : readLines (text.toList.splitOn '\n') = ([], sections.map encoded)) :
    (readAll text).map frame = sections.map frame := by
  rw [readAll, h, List.map_map]
  exact List.map_congr_left fun s _ => s.frame_encoded

/-- Keys that can stand in one section. -/
def KeysSound (keys : List String) : Prop :=
  keys.Nodup ∧ ∀ key ∈ keys, Section.isKey key = true

instance (keys : List String) : Decidable (KeysSound keys) :=
  inferInstanceAs (Decidable (_ ∧ _))

/-- A frame whose name keeps to one line and whose keys can stand in one section. -/
structure Frame.Sound (f : Frame) : Prop where
  name_isSingleLine : Text.isSingleLine f.name = true
  keys_sound : KeysSound f.keys

theorem Frame.Sound.readable {s : Section} (h : s.frame.Sound) : s.Readable where
  name_isSingleLine := h.name_isSingleLine
  keys_isKey entry hentry := h.keys_sound.2 entry.1 (List.mem_map_of_mem hentry)

/-! ## The structure of a skin -/

/-- The frames in front of all declarations; `scrolls` says whether the mouse wheel changes the
scale. -/
def headerFrames (scrolls : Bool) : List Frame :=
  [⟨"Metadata", ["Name", "Author", "Version", "Description"]⟩,
    ⟨"Rainmeter",
      ["Update", "BackgroundMode", "SolidColor", "SkinWidth", "SkinHeight", "AccurateText"] ++
        if scrolls then ["MouseScrollUpAction", "MouseScrollDownAction"] else []⟩,
    ⟨"Variables", ["Scale", "ScrollMouseIncrement"]⟩]

namespace LayerSnapshot

/-- The frames of the measure that a layer shows, in the order of its recipe. -/
def measureFrames (layer : LayerSnapshot) : List Frame :=
  match layer.catalogMeasure? with
  | some entry => entry.recipe.declarations.map fun d =>
    ⟨d.nameFor (measureName layer.name), "Measure" :: d.options.map Prod.fst⟩
  | none => []

/-- The keys of the meter of a layer. -/
def meterKeys (layer : LayerSnapshot) : List String :=
  "Meter" :: ((if layer.catalogMeasure?.isSome then ["MeasureName"] else []) ++ layer.contentKeys)

/-- The frame of the meter of a layer. -/
def meterFrame (layer : LayerSnapshot) : Frame :=
  ⟨layer.name, layer.meterKeys⟩

end LayerSnapshot

/-- The structure of a skin in which the layers `shown` appear. -/
def skinFrames (options : SkinOptions) (shown : List LayerSnapshot) : List Frame :=
  headerFrames options.allowScrollResize ++ shown.flatMap LayerSnapshot.measureFrames ++
    shown.map LayerSnapshot.meterFrame

theorem headerSections_frames (background : Background) (metadata : Metadata)
    (options : SkinOptions) :
    (headerSections background metadata options).map Section.frame =
      headerFrames options.allowScrollResize := by
  cases h : options.allowScrollResize <;>
    simp [headerSections, metadataSection, engineSection, variablesSection, scrollActions,
      Section.frame, headerFrames, h]

namespace LayerSnapshot

theorem frame_declarations (layer : LayerSnapshot) :
    layer.declarations.map (Section.frame ∘ MeasureDeclaration.toSection) =
      layer.measureFrames := by
  unfold declarations measureFrames
  cases layer.catalogMeasure? with
  | none => rfl
  | some entry =>
    simp [MeasureEntry.declarationsFor, Section.frame, MeasureDeclaration.toSection,
      Declaration.optionsFor, Function.comp_def]

theorem frame_meter_blockWith {layer : LayerSnapshot} {options : List (String × String)}
    (h : options.map Prod.fst = layer.contentKeys) :
    (layer.blockWith options).meter.toSection.frame = layer.meterFrame := by
  have hreferences : (layer.blockWith options).meter.references.map Prod.fst =
      if layer.catalogMeasure?.isSome then ["MeasureName"] else [] := by
    unfold MeterDeclaration.references blockWith references
    split <;> rfl
  simp only [Section.frame, MeterDeclaration.toSection, List.map_cons, List.map_append,
    hreferences, meterFrame, meterKeys]
  simp only [blockWith, h]

end LayerSnapshot

/-- The declarations of layers have the frames of the layers, in the same order. -/
theorem frames_of_blocks {c : MeterContext} {layers : List LayerSnapshot} {blocks : List Block}
    (h : List.Forall₂ (fun layer b => c.block layer = .ok (some b)) layers blocks) :
    (blocks.flatMap Block.measures).map (Section.frame ∘ MeasureDeclaration.toSection) =
        layers.flatMap LayerSnapshot.measureFrames ∧
      (blocks.map Block.meter).map (Section.frame ∘ MeterDeclaration.toSection) =
        layers.map LayerSnapshot.meterFrame := by
  induction h with
  | nil => exact ⟨rfl, rfl⟩
  | cons hb _ ih =>
    obtain ⟨options, rfl, hkeys⟩ := MeterContext.block_eq_some hb
    refine ⟨?_, ?_⟩
    · rw [List.flatMap_cons, List.map_append, ih.1, List.flatMap_cons]
      exact congrArg (· ++ _) (LayerSnapshot.frame_declarations _)
    · rw [List.map_cons, List.map_cons, ih.2, List.map_cons]
      exact congrArg (· :: _) (LayerSnapshot.frame_meter_blockWith hkeys)

/-- A document has the structure that its layers give. -/
theorem documentOf_frames {background : Background} {metadata : Metadata} {options : SkinOptions}
    {assets : AssetPlan} {shown : List LayerSnapshot} {doc : Document}
    (hshown : ∀ layer ∈ shown, layer.isShown = true)
    (h : documentOf background metadata options assets shown = .ok doc) :
    doc.sections.map Section.frame = skinFrames options shown := by
  obtain ⟨blocks, hblocks, rfl⟩ := documentOf_eq_ok hshown h
  obtain ⟨hmeasures, hmeters⟩ := frames_of_blocks hblocks
  rw [Document.sections, List.map_append, List.map_append, List.map_map, List.map_map,
    headerSections_frames, hmeasures, hmeters, skinFrames]

/-! ## Sound frames -/

theorem headerFrames_sound {scrolls : Bool} {f : Frame} (hf : f ∈ headerFrames scrolls) :
    f.Sound := by
  have hsound : ∀ scrolls, ∀ f ∈ headerFrames scrolls,
      Text.isSingleLine f.name = true ∧ KeysSound f.keys := by
    decide +kernel
  obtain ⟨hname, hkeys⟩ := hsound scrolls f hf
  exact ⟨hname, hkeys⟩

namespace LayerSnapshot

theorem meterKeys_sound (layer : LayerSnapshot) : KeysSound layer.meterKeys := by
  unfold meterKeys contentKeys
  generalize layer.catalogMeasure?.isSome = measured
  cases layer.payload with
  | rotator _ =>
    dsimp only
    generalize (layer.catalogMeasure?.bind (·.recipe.valueRemainder)).isSome = cyclic
    cases measured <;> cases cyclic <;> decide +kernel
  | shape content =>
    dsimp only
    cases measured <;> cases content.outline <;> decide +kernel
  | text _ | image _ | bar _ =>
    dsimp only
    cases measured <;> decide +kernel

/-- The frames of a layer's measure are sound if its name keeps to one line. -/
theorem measureFrames_sound {layer : LayerSnapshot} (hname : Text.isSingleLine layer.name = true)
    {f : Frame} (hf : f ∈ layer.measureFrames) : f.Sound := by
  have hentries : ∀ entry ∈ Catalog.entries, ∀ d ∈ entry.recipe.declarations,
      Text.isSingleLine d.suffix = true ∧ KeysSound ("Measure" :: d.options.map Prod.fst) := by
    decide +kernel
  have hword : Text.isSingleLine "Measure" = true := by decide
  unfold measureFrames at hf
  cases hentry : layer.catalogMeasure? with
  | none => simp [hentry] at hf
  | some entry =>
    rw [hentry] at hf
    obtain ⟨d, hd, rfl⟩ := List.mem_map.1 hf
    obtain ⟨hsuffix, hkeys⟩ := hentries entry (catalogMeasure?_eq_some hentry).1 d hd
    exact ⟨by simp [Declaration.nameFor, measureName, hword, hname, hsuffix], hkeys⟩

end LayerSnapshot

/-- Every frame of a skin is sound if the names of the layers keep to one line. -/
theorem skinFrames_sound {options : SkinOptions} {shown : List LayerSnapshot}
    (hnames : ∀ layer ∈ shown, Text.isSingleLine layer.name = true) :
    ∀ f ∈ skinFrames options shown, f.Sound := by
  intro f hf
  rw [skinFrames, List.mem_append, List.mem_append, List.mem_flatMap, List.mem_map] at hf
  rcases hf with (hf | ⟨layer, hlayer, hf⟩) | ⟨layer, hlayer, rfl⟩
  · exact headerFrames_sound hf
  · exact LayerSnapshot.measureFrames_sound (hnames layer hlayer) hf
  · exact ⟨hnames layer hlayer, layer.meterKeys_sound⟩

/-! ## Compiled skins -/

section Compiled

variable {snapshot : Snapshot} {metadata : Metadata} {options : SkinOptions} {fonts : FontCache}
  {skin : CompiledSkin}

/-- The names of layers that appear keep to one line if the rules are kept. -/
theorem isSingleLine_of_mem_shown
    (h : validate snapshot metadata options.settings = .ok ()) :
    ∀ layer ∈ snapshot.shown, Text.isSingleLine layer.name = true := by
  intro layer hlayer
  have hlayers := (validate_eq_ok_iff.1 h).2.2.2.1
  have hrules := checkLayer_eq_ok_iff.1 (hlayers layer (List.mem_filter.1 hlayer).1)
  exact isSingleLine_of_isSectionName hrules.1

/-- The text of a compiled skin is the text of a document with the structure of the layers that
appear, and all frames of the document are sound. -/
theorem exists_document_of_compile
    (h : compile snapshot metadata options fonts = .ok skin) :
    ∃ doc, documentOf snapshot.background metadata options
        (AssetPlan.ofLayers fonts snapshot.shown) snapshot.shown = .ok doc ∧
      skin.text = doc.render ∧
      doc.sections.map Section.frame = skinFrames options snapshot.shown ∧
      ∀ s ∈ doc.sections, s.frame.Sound := by
  obtain ⟨hvalid, doc, hdoc, rfl⟩ := compile_eq_ok_iff.1 h
  have hframes := documentOf_frames (fun _ => Snapshot.isShown_of_mem_shown) hdoc
  refine ⟨doc, hdoc, rfl, hframes, fun s hs => ?_⟩
  exact skinFrames_sound (isSingleLine_of_mem_shown hvalid) _ (hframes ▸ List.mem_map_of_mem hs)

/-- The sections of a compiled skin have the structure of the layers that appear. -/
theorem compile_frames (h : compile snapshot metadata options fonts = .ok skin) :
    (Section.readAll skin.text).map Section.frame = skinFrames options snapshot.shown := by
  obtain ⟨doc, -, htext, hframes, hsound⟩ := exists_document_of_compile h
  have hreadable : ∀ s ∈ doc.sections, s.Readable := fun s hs => (hsound s hs).readable
  rw [← hframes, htext]
  exact Section.frame_readAll (Document.readLines_render hreadable)

/-- A compiled skin is read back exactly: its sections are those of the document, with the
structure of the layers that appear and with nothing but the encoded values of the document
under their keys. Every section ends with its only empty line, and no other line is left. -/
theorem compile_readLines (h : compile snapshot metadata options fonts = .ok skin) :
    ∃ doc, documentOf snapshot.background metadata options
        (AssetPlan.ofLayers fonts snapshot.shown) snapshot.shown = .ok doc ∧
      doc.sections.map Section.frame = skinFrames options snapshot.shown ∧
      Section.readLines (skin.text.toList.splitOn '\n') =
        ([], doc.sections.map Section.encoded) ∧
      (∀ s ∈ doc.sections, (s.entries.map Prod.fst).Nodup) ∧
      skin.text.toList.splitOn '\n' =
        (doc.sections.flatMap fun s => s.lines.map String.toList) ++ [[]] ∧
      (∀ s ∈ doc.sections, ∃ body, s.lines = body ++ [""] ∧ "" ∉ body) ∧
      '\r' ∉ skin.text.toList := by
  obtain ⟨doc, hdoc, htext, hframes, hsound⟩ := exists_document_of_compile h
  have hreadable : ∀ s ∈ doc.sections, s.Readable := fun s hs => (hsound s hs).readable
  rw [htext]
  refine ⟨doc, hdoc, hframes, Document.readLines_render hreadable, ?_,
    Document.splitOn_render hreadable, ?_, Document.carriageReturn_not_mem_render hreadable⟩
  · exact fun s hs => (hsound s hs).keys_sound.1
  · exact fun s hs => Section.lines_eq_append_blank (hreadable s hs)

/-- A text that tries to open a section and to write an entry of its own. -/
def forgingText : LayerSnapshot where
  name := "Clock"
  payload := .text ⟨"12:00\n[Rainmeter]\nUpdate=1", "Arial Bold", 24, ⟨"#000000", 1⟩⟩
  geometry := ⟨⟨0, 0⟩, ⟨100, 20⟩, .unit, 0⟩

/-- What is written as a section in a text stays a part of the text. -/
theorem compile_readLines_forgingText :
    ∃ skin, compile ⟨{}, [forgingText]⟩ {} {} {} = .ok skin ∧
      (Section.readAll skin.text).map Section.frame =
        skinFrames {} (Snapshot.shown ⟨{}, [forgingText]⟩) ∧
      (Section.readAll skin.text).map Section.name =
        ["Metadata", "Rainmeter", "Variables", "Clock"] := by
  have hok : (compile ⟨{}, [forgingText]⟩ {} {} {}).isOk = true := by decide +kernel
  obtain ⟨skin, hskin⟩ := exists_eq_ok_of_isOk hok
  obtain ⟨doc, -, hframes, hread, -⟩ := compile_readLines hskin
  have hsections : (Section.readAll skin.text).map Section.frame =
      skinFrames {} (Snapshot.shown ⟨{}, [forgingText]⟩) :=
    (Section.frame_readAll hread).trans hframes
  refine ⟨skin, hskin, hsections, ?_⟩
  have hnames := congrArg (List.map Frame.name) hsections
  rw [List.map_map] at hnames
  exact hnames

end Compiled

end WidgetSkin
