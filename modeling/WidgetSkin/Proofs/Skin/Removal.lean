import WidgetSkin.Proofs.Skin.Acceptance

/-!
# A skin without one of its layers

What a layer declares depends on the layer itself, on the corner of the background, on the
settings and on the places of the images. A layer that is taken out of a snapshot takes nothing
with it but its own sections, as long as it is not the first one with its image: then the other
images keep their places.

## Main definitions

* `MeterContext.blocks` — the declarations of several layers.
* `Block.measureSections`, `Block.meterSection` — the sections of one layer.
* `sectionsText` — the text of a sequence of sections.
* `ImageBefore` — an image has its place before a layer comes.

## Main statements

* `MeterContext.block_congr_images` — of the assets, a layer depends on the images only.
* `AssetPlan.images_ofLayers_remove` — images keep their places.
* `compile_remove` — the skin without a layer.
-/

namespace WidgetSkin

/-! ## Sections -/

/-- The sections of the measures of one layer. -/
def Block.measureSections (b : Block) : List Section :=
  b.measures.map MeasureDeclaration.toSection

/-- The section of the meter of one layer. -/
def Block.meterSection (b : Block) : Section :=
  b.meter.toSection

/-- The text of a sequence of sections. -/
def sectionsText (sections : List Section) : String :=
  String.join (sections.map Section.render)

namespace MeterContext

/-- The declarations of several layers in their order, for those that have any. -/
def blocks (c : MeterContext) (layers : List LayerSnapshot) : List Block :=
  layers.filterMap fun layer => (c.block layer).toOption.join

theorem blocks_append (c : MeterContext) (before after : List LayerSnapshot) :
    c.blocks (before ++ after) = c.blocks before ++ c.blocks after :=
  List.filterMap_append

theorem blocks_singleton {c : MeterContext} {layer : LayerSnapshot} {own : Option Block}
    (h : c.block layer = .ok own) : c.blocks [layer] = own.toList := by
  cases own <;> simp [blocks, h, Except.toOption]

theorem blocks_eq_of_forall₂ {c : MeterContext} {layers : List LayerSnapshot}
    {found : List Block}
    (h : List.Forall₂ (fun layer b => c.block layer = .ok (some b)) layers found) :
    c.blocks layers = found := by
  induction h with
  | nil => rfl
  | cons hb _ ih =>
    rw [← List.singleton_append, blocks_append, blocks_singleton hb, ih]
    rfl

/-- A layer that does not appear has no declarations. -/
theorem block_eq_none (c : MeterContext) {layer : LayerSnapshot} (h : layer.isShown = false) :
    c.block layer = .ok none := by
  unfold block
  cases hp : layer.payload <;>
    simp only [LayerSnapshot.isShown, LayerSnapshot.kind, hp, Payload.kind] at h ⊢
  all_goals simp_all

theorem blocks_filter_isShown (c : MeterContext) (layers : List LayerSnapshot) :
    c.blocks (layers.filter LayerSnapshot.isShown) = c.blocks layers := by
  rw [blocks, List.filterMap_filter]
  refine List.filterMap_congr fun layer _ => ?_
  cases hshown : layer.isShown with
  | true => rfl
  | false => simp [c.block_eq_none hshown, Except.toOption]

/-- Of the assets, the declarations of a layer depend on the images only. -/
theorem block_congr_images {origin : Point} {settings : Settings} {assets other : AssetPlan}
    (h : other.images = assets.images) (layer : LayerSnapshot) :
    block ⟨origin, settings, other⟩ layer = block ⟨origin, settings, assets⟩ layer := by
  have hname : imageName ⟨origin, settings, other⟩ = imageName ⟨origin, settings, assets⟩ := by
    funext source
    simp only [imageName, AssetPlan.imageIndex?, h]
  have himage : imageBlock ⟨origin, settings, other⟩ = imageBlock ⟨origin, settings, assets⟩ := by
    funext layer source
    simp only [imageBlock, hname]
    rfl
  have hrotator : rotatorBlock ⟨origin, settings, other⟩ =
      rotatorBlock ⟨origin, settings, assets⟩ := by
    funext layer needle entry
    simp only [rotatorBlock, hname]
    rfl
  simp only [block, himage, hrotator]
  rfl

theorem blocks_congr_images {origin : Point} {settings : Settings} {assets other : AssetPlan}
    (h : other.images = assets.images) (layers : List LayerSnapshot) :
    blocks ⟨origin, settings, other⟩ layers = blocks ⟨origin, settings, assets⟩ layers := by
  simp only [blocks, block_congr_images h]

end MeterContext

/-! ## Images -/

/-- One of the layers appears and shows the image of a path. -/
def ImageBefore (layers : List LayerSnapshot) (source : String) : Prop :=
  ∃ earlier ∈ layers, earlier.isShown = true ∧
    ∃ other, earlier.payload.imageSource? = some other ∧ Path.SamePlace other source

namespace AssetPlan

variable {fonts : FontCache}

/-- Which images a layer adds depends on the images alone. -/
theorem images_addLayer_congr {plan other : AssetPlan} (h : other.images = plan.images)
    (layer : LayerSnapshot) :
    (addLayer fonts other layer).images = (addLayer fonts plan layer).images := by
  simp only [images_addLayer]
  cases layer.payload.imageSource? with
  | none => exact h
  | some source => simp only [Option.elim_some, images_addImage, imageIndex?, h]

theorem images_foldl_congr {plan other : AssetPlan} (h : other.images = plan.images)
    (layers : List LayerSnapshot) :
    (layers.foldl (addLayer fonts) other).images =
      (layers.foldl (addLayer fonts) plan).images := by
  induction layers generalizing plan other with
  | nil => exact h
  | cons layer layers ih => exact ih (images_addLayer_congr h layer)

/-- A layer whose image has its place adds none. -/
theorem images_addLayer_eq_self {plan : AssetPlan} {layer : LayerSnapshot}
    (h : ∀ source, layer.payload.imageSource? = some source →
      ∃ p ∈ plan.images, Path.SamePlace p source) :
    (addLayer fonts plan layer).images = plan.images := by
  rw [images_addLayer]
  cases hsource : layer.payload.imageSource? with
  | none => rfl
  | some source =>
    rw [Option.elim_some, addImage, if_pos (isSome_imageIndex?_iff.2 (h source hsource))]

/-- Images keep their places without a layer whose image has its place before. -/
theorem images_ofLayers_remove {before after : List LayerSnapshot} {layer : LayerSnapshot}
    (h : ∀ source, layer.payload.imageSource? = some source → ∃ earlier ∈ before,
      ∃ other, earlier.payload.imageSource? = some other ∧ Path.SamePlace other source) :
    (ofLayers fonts (before ++ layer :: after)).images =
      (ofLayers fonts (before ++ after)).images := by
  rw [ofLayers, List.foldl_append, List.foldl_cons, ofLayers, List.foldl_append]
  refine images_foldl_congr (images_addLayer_eq_self fun source hsource => ?_) after
  obtain ⟨earlier, hmem, other, hother, hsame⟩ := h source hsource
  obtain ⟨p, hp, hplace⟩ := exists_samePlace_foldl hmem hother
  exact ⟨p, hp, hplace.trans hsame⟩

end AssetPlan

/-! ## Compiled skins -/

section Compiled

variable {background : Background} {layers before after : List LayerSnapshot}
  {layer : LayerSnapshot} {metadata : Metadata} {options : SkinOptions} {fonts : FontCache}
  {skin : CompiledSkin}

/-- The text of a compiled skin: the sections in front, the measures of all layers, their
meters. -/
theorem text_of_compile (h : compile ⟨background, layers⟩ metadata options fonts = .ok skin) :
    skin.text = sectionsText (headerSections background metadata options ++
      (MeterContext.blocks ⟨background.position, options.settings, skin.assets⟩ layers).flatMap
        Block.measureSections ++
      (MeterContext.blocks ⟨background.position, options.settings, skin.assets⟩ layers).map
        Block.meterSection) := by
  obtain ⟨-, doc, hdoc, rfl⟩ := compile_eq_ok_iff.1 h
  obtain ⟨found, hfound, rfl⟩ := documentOf_eq_ok (fun _ => Snapshot.isShown_of_mem_shown) hdoc
  have hblocks := (MeterContext.blocks_filter_isShown _ layers).symm.trans
    (MeterContext.blocks_eq_of_forall₂ hfound)
  rw [hblocks]
  simp only [Document.render, Document.sections, sectionsText, List.map_flatMap, List.map_map]
  rfl

/-- Rules that a snapshot keeps are kept without one of its layers. -/
theorem validate_remove {settings : Settings}
    (h : validate ⟨background, before ++ layer :: after⟩ metadata settings = .ok ()) :
    validate ⟨background, before ++ after⟩ metadata settings = .ok () := by
  obtain ⟨hbackground, hmetadata, hskin, hlayers, hnames⟩ := validate_eq_ok_iff.1 h
  have hsub : List.Sublist (before ++ after) (before ++ layer :: after) :=
    (List.Sublist.refl before).append (List.sublist_cons_self layer after)
  exact validate_eq_ok_iff.2 ⟨hbackground, hmetadata, hskin,
    fun l hl => hlayers l (hsub.subset hl), hnames.sublist (hsub.map _)⟩

/-- Among layers with different names, those that a condition picks lose one name with one
layer. -/
theorem names_remove (hnames : ((before ++ layer :: after).map LayerSnapshot.name).Nodup)
    (pick : LayerSnapshot → Bool) :
    ((before ++ after).filter pick).map LayerSnapshot.name =
      (((before ++ layer :: after).filter pick).map LayerSnapshot.name).filter
        (· ≠ layer.name) := by
  have hother : ∀ l ∈ before ++ after, l.name ≠ layer.name := by
    intro l hl heq
    have hperm : List.Perm (before ++ layer :: after) (layer :: (before ++ after)) :=
      List.perm_middle
    have hcons := (hperm.map LayerSnapshot.name).nodup_iff.1 hnames
    exact (List.nodup_cons.1 hcons).1 (heq ▸ List.mem_map_of_mem hl)
  -- the layer is the only one with its name, so it goes with that name
  have hrest : (before ++ layer :: after).filter (fun l => decide (l.name ≠ layer.name)) =
      before ++ after := by
    rw [List.filter_append, List.filter_cons_of_neg (by simp), ← List.filter_append]
    exact List.filter_eq_self.2 fun l hl => decide_eq_true (hother l hl)
  rw [List.filter_map, ← hrest, List.filter_filter, Function.comp_def, List.filter_filter]
  simp only [Bool.and_comm]

/-- The images of a skin keep their places without a layer that is not the first one with its
image. -/
theorem images_shown_remove
    (h : layer.isShown = true → ∀ source, layer.payload.imageSource? = some source →
      ImageBefore before source) :
    (AssetPlan.ofLayers fonts ((before ++ after).filter LayerSnapshot.isShown)).images =
      (AssetPlan.ofLayers fonts
        ((before ++ layer :: after).filter LayerSnapshot.isShown)).images := by
  rw [List.filter_append, List.filter_append, List.filter_cons]
  cases hshown : layer.isShown with
  | false => rfl
  | true =>
    refine (AssetPlan.images_ofLayers_remove fun source hsource => ?_).symm
    obtain ⟨earlier, hmem, hearlier, other, hother, hsame⟩ := h hshown source hsource
    exact ⟨earlier, List.mem_filter.2 ⟨hmem, hearlier⟩, other, hother, hsame⟩

/-- A layer that appears in a compiled skin has declarations, and any other layer has none. -/
theorem exists_block_of_compile
    (h : compile ⟨background, before ++ layer :: after⟩ metadata options fonts = .ok skin) :
    ∃ own, MeterContext.block ⟨background.position, options.settings, skin.assets⟩ layer = .ok own ∧
      own.isSome = layer.isShown := by
  cases hshown : layer.isShown with
  | false => exact ⟨none, MeterContext.block_eq_none _ hshown, rfl⟩
  | true =>
    obtain ⟨-, doc, -, rfl⟩ := compile_eq_ok_iff.1 h
    have hmem : layer ∈ Snapshot.shown ⟨background, before ++ layer :: after⟩ :=
      List.mem_filter.2 ⟨by simp, hshown⟩
    obtain ⟨b, hb⟩ := MeterContext.exists_block
      (c := ⟨background.position, options.settings, AssetPlan.ofLayers fonts
        (Snapshot.shown ⟨background, before ++ layer :: after⟩)⟩) hshown
      fun _ hsource => AssetPlan.exists_imageIndex?_ofLayers hmem hsource
    exact ⟨some b, hb, rfl⟩

/-- A snapshot that compiles does so without any of its layers. If the layer is not the first one
with its image, its own sections go and the rest of the text stays, its name goes from those that
were left out, and the images keep their places. -/
theorem compile_remove
    (h : compile ⟨background, before ++ layer :: after⟩ metadata options fonts = .ok skin)
    (himage : layer.isShown = true → ∀ source, layer.payload.imageSource? = some source →
      ImageBefore before source) :
    ∃ rest own ahead between behind,
      compile ⟨background, before ++ after⟩ metadata options fonts = .ok rest ∧
      MeterContext.block ⟨background.position, options.settings, skin.assets⟩ layer = .ok own ∧
      own.isSome = layer.isShown ∧
      skin.text = sectionsText (ahead ++ own.toList.flatMap Block.measureSections ++ between ++
        own.toList.map Block.meterSection ++ behind) ∧
      rest.text = sectionsText (ahead ++ between ++ behind) ∧
      rest.skippedLayers = skin.skippedLayers.filter (· ≠ layer.name) ∧
      rest.assets.images = skin.assets.images := by
  obtain ⟨hvalid, doc, -, hskin⟩ := compile_eq_ok_iff.1 h
  obtain ⟨rest, hrest⟩ : ∃ rest, compile ⟨background, before ++ after⟩ metadata options fonts =
      .ok rest := exists_compile_of_validate (validate_remove hvalid)
  obtain ⟨-, docRest, -, hrestEq⟩ := compile_eq_ok_iff.1 hrest
  obtain ⟨own, hown, hsome⟩ := exists_block_of_compile h
  have himages : rest.assets.images = skin.assets.images := by
    rw [hskin, hrestEq]
    exact images_shown_remove himage
  have hskipped : rest.skippedLayers = skin.skippedLayers.filter (· ≠ layer.name) := by
    rw [hskin, hrestEq]
    exact names_remove (validate_eq_ok_iff.1 hvalid).2.2.2.2 _
  have htext := text_of_compile h
  have htextRest := text_of_compile hrest
  -- the layer stands between the others, once among the measures and once among the meters
  rw [← List.singleton_append, MeterContext.blocks_append, MeterContext.blocks_append,
    MeterContext.blocks_singleton hown] at htext
  rw [MeterContext.blocks_congr_images himages, MeterContext.blocks_append] at htextRest
  generalize MeterContext.blocks _ before = blocksBefore at htext htextRest
  generalize MeterContext.blocks _ after = blocksAfter at htext htextRest
  refine ⟨rest, own,
    headerSections background metadata options ++ blocksBefore.flatMap Block.measureSections,
    blocksAfter.flatMap Block.measureSections ++ blocksBefore.map Block.meterSection,
    blocksAfter.map Block.meterSection, hrest, hown, hsome, ?_, ?_, hskipped, himages⟩
  · rw [htext]
    simp only [List.flatMap_append, List.map_append, List.append_assoc]
  · rw [htextRest]
    simp only [List.flatMap_append, List.map_append, List.append_assoc]

/-- A picture. -/
def picture (name source : String) : LayerSnapshot where
  name := name
  payload := .image source
  geometry := ⟨⟨0, 0⟩, ⟨100, 100⟩, .unit, 0⟩

/-- Of two pictures of one file the second goes with its section, and the file keeps its place. -/
theorem compile_remove_secondPicture :
    ∃ (skin rest : CompiledSkin) (own : Block) (ahead behind : List Section),
      compile ⟨{}, [picture "Upper" "art/sun.png", picture "Lower" "art//sun.png"]⟩ {} {} {} =
        .ok skin ∧
      compile ⟨{}, [picture "Upper" "art/sun.png"]⟩ {} {} {} = .ok rest ∧
      own.meter.name = "Lower" ∧
      skin.text = sectionsText (ahead ++ own.meterSection :: behind) ∧
      rest.text = sectionsText (ahead ++ behind) ∧
      rest.assets.images = skin.assets.images := by
  have hok : (compile ⟨{}, [picture "Upper" "art/sun.png"] ++ [picture "Lower" "art//sun.png"]⟩
      {} {} {}).isOk = true := by decide +kernel
  obtain ⟨skin, hskin⟩ := exists_eq_ok_of_isOk hok
  obtain ⟨rest, own, ahead, between, behind, hrest, hown, hsome, htext, htextRest, -, himages⟩ :=
    compile_remove hskin fun _ source hsource => by
      obtain rfl := Option.some.inj hsource
      exact ⟨picture "Upper" "art/sun.png", List.mem_singleton_self _, rfl, "art/sun.png", rfl,
        by decide⟩
  obtain ⟨b, rfl⟩ := Option.isSome_iff_exists.1 (hsome.trans rfl)
  obtain ⟨options, hb, -⟩ := MeterContext.block_eq_some hown
  have hmeasures : b.measureSections = [] := by
    rw [hb]
    rfl
  refine ⟨skin, rest, b, ahead ++ between, behind, hskin, hrest, hb ▸ rfl, ?_, htextRest, himages⟩
  rw [htext]
  simp [hmeasures]

end Compiled

end WidgetSkin
