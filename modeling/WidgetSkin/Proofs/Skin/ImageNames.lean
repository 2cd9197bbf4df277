import WidgetSkin.Proofs.Skin.References

/-!
# Image names in a compiled skin

The meters of raster layers are the only sections of a skin that name an image, and each of them
names the place of its own image among the planned ones.

## Main statements

* `exists_layer_of_imageName` — the layer and the planned image behind an image name.
-/

namespace WidgetSkin

theorem Section.valuesOf_eq_nil {s : Section} {key : String} (h : key ∉ s.frame.keys) :
    s.valuesOf key = [] :=
  valuesWhere_eq_nil fun _ hother => beq_eq_false_iff_ne.2 fun heq => h (heq ▸ hother)

/-! ## Keys -/

theorem imageName_notMem_headerFrames {scrolls : Bool} :
    ∀ f ∈ headerFrames scrolls, "ImageName" ∉ f.keys := by
  cases scrolls <;> decide +kernel

theorem LayerSnapshot.imageName_notMem_measureFrames (layer : LayerSnapshot) :
    ∀ f ∈ layer.measureFrames, "ImageName" ∉ f.keys := by
  have hentries : ∀ entry ∈ Catalog.entries, ∀ d ∈ entry.recipe.declarations,
      "ImageName" ∉ "Measure" :: d.options.map Prod.fst := by
    decide +kernel
  intro f hf
  unfold measureFrames at hf
  cases hentry : layer.catalogMeasure? with
  | none => simp [hentry] at hf
  | some entry =>
    rw [hentry] at hf
    obtain ⟨d, hd, rfl⟩ := List.mem_map.1 hf
    exact hentries entry (catalogMeasure?_eq_some hentry).1 d hd

theorem LayerSnapshot.imageName_notMem_meterKeys {layer : LayerSnapshot}
    (h : layer.payload.imageSource? = none) : "ImageName" ∉ layer.meterKeys := by
  unfold meterKeys contentKeys
  generalize layer.catalogMeasure?.isSome = measured
  cases hp : layer.payload with
  | image _ | rotator _ => simp [hp, Payload.imageSource?] at h
  | shape content =>
    dsimp only
    cases measured <;> cases content.outline <;> decide +kernel
  | text _ | bar _ =>
    dsimp only
    cases measured <;> decide +kernel

/-! ## Sections -/

/-- An image name in the sections of a layer is the one place of the image of that layer. -/
theorem MeterContext.imageName_of_block {c : MeterContext} {layer : LayerSnapshot} {b : Block}
    (h : c.block layer = .ok (some b)) {s : Section}
    (hs : s ∈ b.sections.measures ++ [b.sections.meter]) {value : String}
    (hvalue : value ∈ s.valuesOf "ImageName") :
    s.name = layer.name ∧ ∃ source index path, layer.payload.imageSource? = some source ∧
      c.assets.images[index]? = some path ∧ Path.SamePlace path source ∧
      value = imageReference index := by
  obtain ⟨options, hb, hkeys⟩ := block_eq_some h
  rw [List.mem_append, List.mem_singleton] at hs
  rcases hs with hs | rfl
  · -- a measure names no image
    have hframe : s.frame ∈ layer.measureFrames := by
      rw [← layer.frame_declarations]
      obtain ⟨d, hd, rfl⟩ := List.mem_map.1 hs
      rw [Section.frame_encoded]
      rw [hb] at hd
      exact List.mem_map_of_mem hd
    rw [Section.valuesOf_eq_nil (layer.imageName_notMem_measureFrames _ hframe)] at hvalue
    cases hvalue
  · refine ⟨by rw [hb]; rfl, ?_⟩
    cases hsource : layer.payload.imageSource? with
    | none =>
      have hframe : b.sections.meter.frame = layer.meterFrame := by
        rw [hb, ← LayerSnapshot.frame_meter_blockWith hkeys]
        exact Section.frame_encoded _
      have hnone : "ImageName" ∉ b.sections.meter.frame.keys := by
        rw [hframe]
        exact LayerSnapshot.imageName_notMem_meterKeys hsource
      rw [Section.valuesOf_eq_nil hnone] at hvalue
      cases hvalue
    | some source =>
      obtain ⟨name, himage, hvalues⟩ := exists_imageName_of_block h hsource
      obtain ⟨index, path, hpath, hsame, rfl⟩ := exists_index_of_imageName himage
      have hencoded : b.sections.meter.valuesOf "ImageName" = [imageReference index] :=
        Section.valuesWhere_encoded_eq hvalues
          (List.forall_mem_singleton.2 (isSingleLine_imageReference index))
      rw [hencoded, List.mem_singleton] at hvalue
      exact ⟨source, index, path, rfl, hpath, hsame, hvalue⟩

/-- An image name in a compiled skin stands in the section of a raster layer that appears, and it
is the place of the image of that layer among the planned ones. -/
theorem exists_layer_of_imageName {snapshot : Snapshot} {metadata : Metadata}
    {options : SkinOptions} {fonts : FontCache} {skin : CompiledSkin}
    (h : compile snapshot metadata options fonts = .ok skin) {s : Section}
    (hs : s ∈ Section.readAll skin.text) {value : String}
    (hvalue : value ∈ s.valuesOf "ImageName") :
    ∃ layer ∈ snapshot.shown, s.name = layer.name ∧
      ∃ source index path, layer.payload.imageSource? = some source ∧
        skin.assets.images[index]? = some path ∧ Path.SamePlace path source ∧
        value = imageReference index := by
  obtain ⟨doc, hdoc, htext, -, hsound⟩ := exists_document_of_compile h
  have hassets : skin.assets = AssetPlan.ofLayers fonts snapshot.shown := by
    obtain ⟨-, _, -, rfl⟩ := compile_eq_ok_iff.1 h
    rfl
  have hread : Section.readAll skin.text = doc.sections.map Section.encoded := by
    rw [Section.readAll, htext, Document.readLines_render fun s hs => (hsound s hs).readable]
  obtain ⟨blocks, hblocks, rfl⟩ := documentOf_eq_ok (fun _ => Snapshot.isShown_of_mem_shown) hdoc
  have hcases : s ∈ (headerSections snapshot.background metadata options).map Section.encoded ∨
      ∃ b ∈ blocks, s ∈ b.sections.measures ++ [b.sections.meter] := by
    rw [hread, Document.sections, List.map_append, List.map_append, List.mem_append,
      List.mem_append] at hs
    rcases hs with (hs | hs) | hs
    · exact .inl hs
    · obtain ⟨_, hsection, rfl⟩ := List.mem_map.1 hs
      obtain ⟨d, hd, rfl⟩ := List.mem_map.1 hsection
      obtain ⟨b, hb, hd⟩ := List.mem_flatMap.1 hd
      exact .inr ⟨b, hb, List.mem_append_left _ (List.mem_map_of_mem hd)⟩
    · obtain ⟨_, hsection, rfl⟩ := List.mem_map.1 hs
      obtain ⟨d, hd, rfl⟩ := List.mem_map.1 hsection
      obtain ⟨b, hb, rfl⟩ := List.mem_map.1 hd
      exact .inr ⟨b, hb, List.mem_append_right _ List.mem_cons_self⟩
  rcases hcases with hheader | ⟨b, hb, hs⟩
  · have hframe : s.frame ∈ headerFrames options.allowScrollResize := by
      rw [← headerSections_frames snapshot.background metadata options]
      obtain ⟨_, hsection, rfl⟩ := List.mem_map.1 hheader
      rw [Section.frame_encoded]
      exact List.mem_map_of_mem hsection
    rw [Section.valuesOf_eq_nil (imageName_notMem_headerFrames _ hframe)] at hvalue
    cases hvalue
  · obtain ⟨layer, hlayer, hblock⟩ := exists_layer_of_mem_blocks hblocks hb
    rw [hassets]
    exact ⟨layer, hlayer, MeterContext.imageName_of_block hblock hs hvalue⟩

end WidgetSkin
