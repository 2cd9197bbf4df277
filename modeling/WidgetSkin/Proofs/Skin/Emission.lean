import Mathlib.Data.List.Forall2
import WidgetSkin.Proofs.Skin.Declarations
import WidgetSkin.Skin.Compile

/-!
# What a compilation declares

A skin declares the measures of all layers that appear and one meter for each of them, in the
order of the layers. What a user types reaches the values of options only: the number of the
declarations, their types and all keys follow from the kinds of the layers and their measures.

## Main definitions

* `LayerSnapshot.declarations`, `LayerSnapshot.references` — what a layer takes from the catalog.
* `LayerSnapshot.contentKeys` — the keys under which a layer is described.
* `LayerSnapshot.blockWith` — the declarations of a layer, up to the values of its options.
* `MeterContext.Describes` — the options of the meters that show a layer.

## Main statements

* `MeterContext.block_eq_some` — the declarations of one layer.
* `documentOf_eq_ok` — the document of all layers.
* `compile_eq_ok_iff` — what a compilation succeeds with.
-/

namespace WidgetSkin

/-! ## Measures of layers -/

theorem Catalog.resolve?_eq_some {kind : LayerKind} {measure : Option String}
    {entry : MeasureEntry} (h : Catalog.resolve? kind measure = some entry) :
    entry ∈ Catalog.entries ∧ entry.kind = kind := by
  obtain ⟨hfind, hkind⟩ := Option.filter_eq_some_iff.1 h
  obtain ⟨id, -, hid⟩ := Option.bind_eq_some_iff.1 hfind
  exact ⟨List.mem_of_find?_eq_some hid, by simpa using hkind⟩

/-- Every measure has a declaration that is named like the layer's measure. -/
theorem MeasureEntry.reference_eq {entry : MeasureEntry} (h : entry ∈ Catalog.entries)
    (layerName : String) : entry.reference layerName = .ok (measureName layerName) := by
  have hprimary : ∀ e ∈ Catalog.entries,
      (e.recipe.declarations.findRev? Declaration.isPrimary).map Declaration.suffix = some "" := by
    decide +kernel
  obtain ⟨d, hd, hsuffix⟩ := Option.map_eq_some_iff.1 (hprimary entry h)
  rw [reference, hd]
  simp [Declaration.nameFor, hsuffix]

namespace LayerSnapshot

theorem catalogMeasure?_eq_some {layer : LayerSnapshot} {entry : MeasureEntry}
    (h : layer.catalogMeasure? = some entry) :
    entry ∈ Catalog.entries ∧ entry.kind = layer.kind :=
  Catalog.resolve?_eq_some h

/-- The catalog holds no measures for images and shapes. -/
theorem catalogMeasure?_eq_none {layer : LayerSnapshot}
    (h : layer.kind = .image ∨ layer.kind = .shape) : layer.catalogMeasure? = none := by
  have hkinds : ∀ e ∈ Catalog.entries, e.kind ≠ .image ∧ e.kind ≠ .shape := by decide +kernel
  cases hentry : layer.catalogMeasure? with
  | none => rfl
  | some entry =>
    obtain ⟨hmem, hkind⟩ := catalogMeasure?_eq_some hentry
    have := hkinds entry hmem
    rw [hkind] at this
    rcases h with h | h <;> simp [h] at this

/-- The declarations of the measure that a layer shows. -/
def declarations (layer : LayerSnapshot) : List MeasureDeclaration :=
  match layer.catalogMeasure? with
  | some entry => entry.declarationsFor layer.name
  | none => []

/-- The measures that the meter of a layer refers to. -/
def references (layer : LayerSnapshot) : List String :=
  if layer.catalogMeasure?.isSome then [measureName layer.name] else []

/-- The keys under which the content of a layer is described. -/
def contentKeys (layer : LayerSnapshot) : List String :=
  match layer.payload with
  | .text _ =>
    ["FontFace", "FontSize", "FontColor", "StringStyle", "X", "Y", "Angle", "AntiAlias", "Text"]
  | .image _ => ["ImageName", "W", "H", "X", "Y", "ImageRotate"]
  | .rotator _ =>
    ["ImageName", "W", "H", "X", "Y", "StartAngle", "RotationAngle", "OffsetX", "OffsetY"] ++
      if (layer.catalogMeasure?.bind (·.recipe.valueRemainder)).isSome then ["ValueRemainder"]
      else []
  | .bar _ => ["X", "Y", "W", "H", "BarOrientation", "BarColor", "SolidColor"]
  | .shape content =>
    ["X", "Y", "Shape"] ++ if content.outline = .triangle then ["TrianglePath"] else []

/-- The declarations of a layer whose content is described by `options`. -/
def blockWith (layer : LayerSnapshot) (options : List (String × String)) : Block :=
  ⟨layer.declarations, ⟨layer.name, .ofKind layer.kind, layer.references, options⟩⟩

end LayerSnapshot

/-! ## One layer -/

namespace MeterContext

theorem measured_eq {layer : LayerSnapshot} {entry : MeasureEntry}
    (h : layer.catalogMeasure? = some entry) (options : List (String × String)) :
    measured layer entry options = .ok (layer.blockWith options) := by
  have hmem := (LayerSnapshot.catalogMeasure?_eq_some h).1
  rw [measured, MeasureEntry.reference_eq hmem, ok_bind, pure_eq_ok_iff]
  simp [LayerSnapshot.blockWith, LayerSnapshot.declarations, LayerSnapshot.references, h]

theorem unmeasured_eq {layer : LayerSnapshot} (h : layer.catalogMeasure? = none)
    (options : List (String × String)) :
    unmeasured layer options = layer.blockWith options := by
  simp [unmeasured, LayerSnapshot.blockWith, LayerSnapshot.declarations,
    LayerSnapshot.references, h]

theorem textBlock_eq (c : MeterContext) (layer : LayerSnapshot) (content : TextContent) :
    ∃ shown, c.textBlock layer content =
      .ok (layer.blockWith (c.textOptions layer content shown)) := by
  unfold textBlock
  cases hm : layer.catalogMeasure? with
  | some entry => exact ⟨_, measured_eq hm _⟩
  | none => exact ⟨_, congrArg Except.ok (unmeasured_eq hm _)⟩

theorem imageBlock_eq_ok {c : MeterContext} {layer : LayerSnapshot} {source : String} {b : Block}
    (hkind : layer.kind = .image) (h : c.imageBlock layer source = .ok b) :
    ∃ name, c.imageName source = .ok name ∧ b = layer.blockWith (c.imageOptions layer name) := by
  obtain ⟨name, hname, hb⟩ := bind_eq_ok_iff.1 h
  have hm := LayerSnapshot.catalogMeasure?_eq_none (.inl hkind)
  exact ⟨name, hname, (pure_eq_ok_iff.1 hb).symm.trans (unmeasured_eq hm _)⟩

theorem rotatorBlock_eq_ok {c : MeterContext} {layer : LayerSnapshot} {needle : Needle}
    {entry : MeasureEntry} {b : Block} (hm : layer.catalogMeasure? = some entry)
    (h : c.rotatorBlock layer needle entry = .ok b) :
    ∃ name, c.imageName needle.source = .ok name ∧
      b = layer.blockWith
        (c.rotatorOptions layer needle name entry.recipe.valueRemainder) := by
  obtain ⟨name, hname, hb⟩ := bind_eq_ok_iff.1 h
  rw [measured_eq hm] at hb
  exact ⟨name, hname, (Except.ok.inj hb).symm⟩

/-- The options are those of a meter that shows the layer. -/
inductive Describes (c : MeterContext) (layer : LayerSnapshot) : List (String × String) → Prop
  | text (content : TextContent) (shown : String) (h : layer.payload = .text content) :
    Describes c layer (c.textOptions layer content shown)
  | image (source name : String) (h : layer.payload = .image source) :
    Describes c layer (c.imageOptions layer name)
  | rotator (needle : Needle) (name : String) (entry : MeasureEntry)
    (h : layer.payload = .rotator needle) (hm : layer.catalogMeasure? = some entry) :
    Describes c layer (c.rotatorOptions layer needle name entry.recipe.valueRemainder)
  | bar (content : BarContent) (h : layer.payload = .bar content) :
    Describes c layer (c.barOptions layer content)
  | shape (content : ShapeContent) (h : layer.payload = .shape content) :
    Describes c layer (c.shapeOptions layer content)

/-- A layer that appears is declared with its measure, its name and its kind, and described by the
options of its kind. -/
theorem exists_describes_of_block {c : MeterContext} {layer : LayerSnapshot} {b : Block}
    (h : c.block layer = .ok (some b)) :
    ∃ options, b = layer.blockWith options ∧ c.Describes layer options := by
  unfold block at h
  cases hp : layer.payload with
  | text content =>
    obtain ⟨shown, htext⟩ := c.textBlock_eq layer content
    simp only [hp, htext, map_eq_ok_iff, Except.ok.injEq, Option.some.injEq] at h
    obtain ⟨_, rfl, rfl⟩ := h
    exact ⟨_, rfl, .text content shown hp⟩
  | image source =>
    have hkind : layer.kind = .image := by simp [LayerSnapshot.kind, hp, Payload.kind]
    simp only [hp, map_eq_ok_iff, Option.some.injEq, exists_eq_right] at h
    obtain ⟨name, -, hb⟩ := imageBlock_eq_ok hkind h
    exact ⟨_, hb, .image source name hp⟩
  | rotator needle =>
    cases hm : layer.catalogMeasure? with
    | some entry =>
      simp only [hp, hm, map_eq_ok_iff, Option.some.injEq, exists_eq_right] at h
      obtain ⟨name, -, hb⟩ := rotatorBlock_eq_ok hm h
      exact ⟨_, hb, .rotator needle name entry hp hm⟩
    | none => simp [hp, hm] at h
  | bar content =>
    cases hm : layer.catalogMeasure? with
    | some entry =>
      simp only [hp, hm, measured_eq hm, map_eq_ok_iff, Except.ok.injEq, Option.some.injEq] at h
      obtain ⟨_, rfl, rfl⟩ := h
      exact ⟨_, rfl, .bar content hp⟩
    | none => simp [hp, hm] at h
  | shape content =>
    have hkind : layer.kind = .shape := by simp [LayerSnapshot.kind, hp, Payload.kind]
    have hm := LayerSnapshot.catalogMeasure?_eq_none (.inr hkind)
    simp only [hp, Except.ok.injEq, Option.some.injEq] at h
    exact ⟨_, h ▸ unmeasured_eq hm _, .shape content hp⟩

/-- The options of a meter stand under the keys of its kind. -/
theorem Describes.map_fst_eq {c : MeterContext} {layer : LayerSnapshot}
    {options : List (String × String)} (h : c.Describes layer options) :
    options.map Prod.fst = layer.contentKeys := by
  cases h with
  | text content shown hp => simp [LayerSnapshot.contentKeys, hp, textOptions]
  | image source name hp => simp [LayerSnapshot.contentKeys, hp, imageOptions]
  | rotator needle name entry hp hm =>
    cases hr : entry.recipe.valueRemainder <;>
      simp [LayerSnapshot.contentKeys, hp, rotatorOptions, hm, hr]
  | bar content hp => simp [LayerSnapshot.contentKeys, hp, barOptions]
  | shape content hp =>
    cases ho : content.outline <;>
      simp [LayerSnapshot.contentKeys, hp, shapeOptions, ho, trianglePath]

/-- A layer that appears is declared with its measure, its name and its kind, and described
under the keys of its kind. -/
theorem block_eq_some {c : MeterContext} {layer : LayerSnapshot} {b : Block}
    (h : c.block layer = .ok (some b)) :
    ∃ options, b = layer.blockWith options ∧ options.map Prod.fst = layer.contentKeys := by
  obtain ⟨options, hb, hoptions⟩ := exists_describes_of_block h
  exact ⟨options, hb, hoptions.map_fst_eq⟩

/-- Only layers that do not appear are passed over. -/
theorem block_ne_none {c : MeterContext} {layer : LayerSnapshot} (h : layer.isShown = true) :
    c.block layer ≠ .ok none := by
  unfold block
  cases hp : layer.payload <;>
    simp only [LayerSnapshot.isShown, LayerSnapshot.kind, hp, Payload.kind] at h ⊢ <;>
    simp [map_eq_ok_iff]
  all_goals
    obtain ⟨entry, hentry⟩ := Option.isSome_iff_exists.1 h
    simp [hentry, map_eq_ok_iff]

end MeterContext

/-! ## All layers -/

namespace Document

theorem foldlM_addMeasure_eq_ok {ds : List MeasureDeclaration} {doc doc' : Document}
    (h : ds.foldlM addMeasure doc = .ok doc') :
    doc' = { doc with measures := doc.measures ++ ds } := by
  induction ds generalizing doc with
  | nil => simpa using (pure_eq_ok_iff.1 h).symm
  | cons d ds ih =>
    rw [List.foldlM_cons] at h
    obtain ⟨next, hnext, h⟩ := bind_eq_ok_iff.1 h
    rw [ih h, (addMeasure_eq_ok_iff.1 hnext).2]
    simp

theorem addBlock_eq_ok {doc doc' : Document} {b : Block} (h : doc.addBlock b = .ok doc') :
    doc' = { doc with
      measures := doc.measures ++ b.measures
      meters := doc.meters ++ [b.meter] } := by
  obtain ⟨next, hnext, h⟩ := bind_eq_ok_iff.1 h
  rw [(addMeter_eq_ok_iff.1 h).2, foldlM_addMeasure_eq_ok hnext]

/-- Layers that appear add their declarations one after another. -/
theorem foldlM_addLayer_eq_ok {c : MeterContext} {layers : List LayerSnapshot}
    (hshown : ∀ layer ∈ layers, layer.isShown = true) {doc doc' : Document}
    (h : layers.foldlM (addLayer c) doc = .ok doc') :
    ∃ blocks, List.Forall₂ (fun layer b => c.block layer = .ok (some b)) layers blocks ∧
      doc' = { doc with
        measures := doc.measures ++ blocks.flatMap Block.measures
        meters := doc.meters ++ blocks.map Block.meter } := by
  induction layers generalizing doc with
  | nil => exact ⟨[], .nil, by simpa using (pure_eq_ok_iff.1 h).symm⟩
  | cons layer layers ih =>
    rw [List.foldlM_cons] at h
    obtain ⟨next, hnext, h⟩ := bind_eq_ok_iff.1 h
    obtain ⟨found, hfound, hnext⟩ := bind_eq_ok_iff.1 hnext
    cases found with
    | none => exact absurd hfound (c.block_ne_none (hshown layer List.mem_cons_self))
    | some b =>
      obtain ⟨blocks, hblocks, hdoc⟩ :=
        ih (fun l hl => hshown l (List.mem_cons_of_mem _ hl)) h
      refine ⟨b :: blocks, .cons hfound hblocks, ?_⟩
      rw [hdoc, addBlock_eq_ok hnext]
      simp

end Document

theorem exists_layer_of_mem_blocks {c : MeterContext} {layers : List LayerSnapshot}
    {blocks : List Block} {b : Block}
    (h : List.Forall₂ (fun layer b => c.block layer = .ok (some b)) layers blocks)
    (hb : b ∈ blocks) : ∃ layer ∈ layers, c.block layer = .ok (some b) := by
  induction h with
  | nil => cases hb
  | @cons first _ _ _ hfirst _ ih =>
    rcases List.mem_cons.1 hb with rfl | hb
    · exact ⟨first, List.mem_cons_self, hfirst⟩
    · obtain ⟨layer, hlayer, hblock⟩ := ih hb
      exact ⟨layer, List.mem_cons_of_mem _ hlayer, hblock⟩

/-- The document of layers that appear: the fixed sections, then the measures, then the meters,
in the order of the layers. -/
theorem documentOf_eq_ok {background : Background} {metadata : Metadata} {options : SkinOptions}
    {assets : AssetPlan} {shown : List LayerSnapshot} {doc : Document}
    (hshown : ∀ layer ∈ shown, layer.isShown = true)
    (h : documentOf background metadata options assets shown = .ok doc) :
    ∃ blocks,
      List.Forall₂ (fun layer b =>
        MeterContext.block ⟨background.position, options.settings, assets⟩ layer = .ok (some b))
        shown blocks ∧
      doc = ⟨headerSections background metadata options, blocks.flatMap Block.measures,
        blocks.map Block.meter⟩ := by
  obtain ⟨blocks, hblocks, hdoc⟩ := Document.foldlM_addLayer_eq_ok hshown h
  exact ⟨blocks, hblocks, by simpa using hdoc⟩

/-- The layers of a snapshot that appear in a skin. -/
def Snapshot.shown (snapshot : Snapshot) : List LayerSnapshot :=
  snapshot.layers.filter LayerSnapshot.isShown

theorem Snapshot.isShown_of_mem_shown {snapshot : Snapshot} {layer : LayerSnapshot}
    (h : layer ∈ snapshot.shown) : layer.isShown = true :=
  (List.mem_filter.1 h).2

/-- A compilation that succeeds gives the text of the document of all layers that appear. -/
theorem compile_eq_ok_iff {snapshot : Snapshot} {metadata : Metadata} {options : SkinOptions}
    {fonts : FontCache} {skin : CompiledSkin} :
    compile snapshot metadata options fonts = .ok skin ↔
      validate snapshot metadata options.settings = .ok () ∧
      ∃ doc, documentOf snapshot.background metadata options
          (AssetPlan.ofLayers fonts snapshot.shown) snapshot.shown = .ok doc ∧
        skin = ⟨doc.render, AssetPlan.ofLayers fonts snapshot.shown,
          (snapshot.layers.filter fun layer => !layer.isShown).map LayerSnapshot.name⟩ := by
  simp only [compile, bind_eq_ok_iff, pure_eq_ok_iff, Snapshot.shown, eq_comm (b := skin)]
  constructor
  · rintro ⟨_, hvalid, doc, hdoc, hskin⟩
    exact ⟨hvalid, doc, hdoc, hskin⟩
  · rintro ⟨hvalid, doc, hdoc, hskin⟩
    exact ⟨(), hvalid, doc, hdoc, hskin⟩

end WidgetSkin
