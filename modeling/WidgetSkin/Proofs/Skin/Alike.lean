import Mathlib.Data.List.Forall2
import WidgetSkin.Proofs.Success
import WidgetSkin.Skin.Compile

/-!
# What a skin does not show

An editor keeps more of a layer than a skin needs: an identifier, whether the layer is seen and
can be picked, where it lies on the working surface, under which name its measure was bound, and
the words of a text that shows a measure instead. None of it reaches a skin. Two snapshots that
differ in nothing else are compiled to the same result, also where they are refused.

## Main definitions

* `LayerSnapshot.Alike`, `Snapshot.Alike` — the same for a skin.

## Main statements

* `checkLayers_congr`, `AssetPlan.ofLayers_congr`, `MeterContext.block_congr` — each part of a
  compilation takes layers that are alike for the same.
* `compile_eq_of_alike` — so does the whole.
-/

namespace WidgetSkin

/-! ## Layers that are alike -/

/-- Two layers are the same for a skin, each seen from the corner of its own background. -/
structure LayerSnapshot.Alike (origin origin' : Point) (layer layer' : LayerSnapshot) : Prop where
  name : layer'.name = layer.name
  /-- The measures are one entry of the catalog for layers of this kind, or both are none. -/
  measure : layer'.catalogMeasure? = layer.catalogMeasure?
  /-- The words of a text may differ if it shows a measure. -/
  payload : layer'.payload = layer.payload ∨
    layer.catalogMeasure?.isSome = true ∧ ∃ content words,
      layer.payload = .text content ∧ layer'.payload = .text { content with text := words }
  position : layer'.geometry.position.relativeTo origin' =
    layer.geometry.position.relativeTo origin
  size : layer'.geometry.size = layer.geometry.size
  scale : layer'.geometry.scale = layer.geometry.scale
  angle : layer'.geometry.angle = layer.geometry.angle

/-- Two snapshots are the same for a skin: backgrounds of one extent, and as many layers that are
alike one by one. -/
structure Snapshot.Alike (snapshot snapshot' : Snapshot) : Prop where
  width : snapshot'.background.width = snapshot.background.width
  height : snapshot'.background.height = snapshot.background.height
  layers : List.Forall₂
    (LayerSnapshot.Alike snapshot.background.position snapshot'.background.position)
    snapshot.layers snapshot'.layers

namespace LayerSnapshot.Alike

variable {origin origin' : Point} {layer layer' : LayerSnapshot}

theorem kind_eq (h : Alike origin origin' layer layer') : layer'.kind = layer.kind := by
  unfold LayerSnapshot.kind
  rcases h.payload with hsame | ⟨-, content, words, hp, hp'⟩
  · rw [hsame]
  · rw [hp, hp']
    rfl

theorem isShown_eq (h : Alike origin origin' layer layer') : layer'.isShown = layer.isShown := by
  simp only [isShown, h.kind_eq, h.measure]

theorem imageSource?_eq (h : Alike origin origin' layer layer') :
    layer'.payload.imageSource? = layer.payload.imageSource? := by
  rcases h.payload with hsame | ⟨-, content, words, hp, hp'⟩
  · rw [hsame]
  · rw [hp, hp']
    rfl

theorem scaledSize_eq (h : Alike origin origin' layer layer') :
    layer'.geometry.scaledSize = layer.geometry.scaledSize := by
  simp only [Geometry.scaledSize, h.size, h.scale]

theorem fontOf?_eq (fonts : FontCache) (h : Alike origin origin' layer layer') :
    AssetPlan.fontOf? fonts layer' = AssetPlan.fontOf? fonts layer := by
  unfold AssetPlan.fontOf?
  rcases h.payload with hsame | ⟨-, content, words, hp, hp'⟩
  · rw [hsame]
  · rw [hp, hp']

/-! ## Rules -/

theorem checkLayer_eq (h : Alike origin origin' layer layer') :
    checkLayer layer' = checkLayer layer := by
  unfold checkLayer
  rw [h.name]
  rcases h.payload with hsame | ⟨-, content, words, hp, hp'⟩
  · rw [hsame]
  · rw [hp, hp']

end LayerSnapshot.Alike

section Parts

variable {origin origin' : Point} {layers layers' : List LayerSnapshot}

theorem checkLayers_congr
    (h : List.Forall₂ (LayerSnapshot.Alike origin origin') layers layers') (seen : List String) :
    checkLayers seen layers' = checkLayers seen layers := by
  induction h generalizing seen with
  | nil => rfl
  | cons hlayer _ ih => simp only [checkLayers, hlayer.checkLayer_eq, hlayer.name, ih]

theorem validate_congr {snapshot snapshot' : Snapshot} (h : snapshot.Alike snapshot')
    (metadata : Metadata) (settings : Settings) :
    validate snapshot' metadata settings = validate snapshot metadata settings := by
  have hbackground :
      checkBackground snapshot'.background = checkBackground snapshot.background := by
    simp only [checkBackground, Background.size, h.width, h.height]
  simp only [validate, hbackground, checkLayers_congr h.layers]

/-! ## Assets -/

theorem AssetPlan.foldl_addLayer_congr (fonts : FontCache)
    (h : List.Forall₂ (LayerSnapshot.Alike origin origin') layers layers') (plan : AssetPlan) :
    layers'.foldl (addLayer fonts) plan = layers.foldl (addLayer fonts) plan := by
  induction h generalizing plan with
  | nil => rfl
  | cons hlayer _ ih =>
    simp only [List.foldl_cons, addLayer, hlayer.fontOf?_eq fonts, hlayer.imageSource?_eq, ih]

theorem AssetPlan.ofLayers_congr (fonts : FontCache)
    (h : List.Forall₂ (LayerSnapshot.Alike origin origin') layers layers') :
    ofLayers fonts layers' = ofLayers fonts layers :=
  foldl_addLayer_congr fonts h {}

/-! ## Declarations -/

namespace MeterContext

variable {settings : Settings} {assets : AssetPlan} {layer layer' : LayerSnapshot}

theorem measured_congr (h : LayerSnapshot.Alike origin origin' layer layer')
    (entry : MeasureEntry) (options : List (String × String)) :
    measured layer' entry options = measured layer entry options := by
  simp only [measured, h.name, h.kind_eq]

theorem unmeasured_congr (h : LayerSnapshot.Alike origin origin' layer layer')
    (options : List (String × String)) : unmeasured layer' options = unmeasured layer options := by
  simp only [unmeasured, h.name, h.kind_eq]

theorem positionOf_congr (h : LayerSnapshot.Alike origin origin' layer layer') :
    positionOf ⟨origin', settings, assets⟩ layer' = positionOf ⟨origin, settings, assets⟩ layer :=
  h.position

/-- What a text meter shows is given; the words of its layer have no part in the rest. -/
theorem textOptions_congr (h : LayerSnapshot.Alike origin origin' layer layer')
    (content : TextContent) (words shown : String) :
    textOptions ⟨origin', settings, assets⟩ layer' { content with text := words } shown =
      textOptions ⟨origin, settings, assets⟩ layer content shown := by
  simp only [textOptions, positionOf_congr h, h.angle]

theorem textBlock_congr (h : LayerSnapshot.Alike origin origin' layer layer')
    (content : TextContent) {words : String}
    (hwords : words = content.text ∨ layer.catalogMeasure?.isSome = true) :
    textBlock ⟨origin', settings, assets⟩ layer' { content with text := words } =
      textBlock ⟨origin, settings, assets⟩ layer content := by
  unfold textBlock
  rw [h.measure]
  cases hm : layer.catalogMeasure? with
  | some entry => simp only [measured_congr h, textOptions_congr h]
  | none =>
    obtain rfl : words = content.text := hwords.resolve_right (by simp [hm])
    simp only [unmeasured_congr h, textOptions_congr h]

theorem imageBlock_congr (h : LayerSnapshot.Alike origin origin' layer layer') (source : String) :
    imageBlock ⟨origin', settings, assets⟩ layer' source =
      imageBlock ⟨origin, settings, assets⟩ layer source := by
  simp only [imageBlock, imageName, imageOptions, unmeasured_congr h, positionOf_congr h,
    h.scaledSize_eq, h.angle]

theorem rotatorBlock_congr (h : LayerSnapshot.Alike origin origin' layer layer')
    (needle : Needle) (entry : MeasureEntry) :
    rotatorBlock ⟨origin', settings, assets⟩ layer' needle entry =
      rotatorBlock ⟨origin, settings, assets⟩ layer needle entry := by
  simp only [rotatorBlock, imageName, rotatorOptions, measured_congr h, positionOf_congr h,
    h.scaledSize_eq]

theorem barOptions_congr (h : LayerSnapshot.Alike origin origin' layer layer')
    (content : BarContent) :
    barOptions ⟨origin', settings, assets⟩ layer' content =
      barOptions ⟨origin, settings, assets⟩ layer content := by
  simp only [barOptions, positionOf_congr h, h.scaledSize_eq]

theorem shapeOptions_congr (h : LayerSnapshot.Alike origin origin' layer layer')
    (content : ShapeContent) :
    shapeOptions ⟨origin', settings, assets⟩ layer' content =
      shapeOptions ⟨origin, settings, assets⟩ layer content := by
  simp only [shapeOptions, positionOf_congr h, h.scaledSize_eq, h.angle]

/-- Layers that are alike have the same declarations, or fail in the same way. -/
theorem block_congr (h : LayerSnapshot.Alike origin origin' layer layer') :
    block ⟨origin', settings, assets⟩ layer' = block ⟨origin, settings, assets⟩ layer := by
  unfold block
  rcases h.payload with hsame | ⟨hshows, content, words, hp, hp'⟩
  · rw [hsame, h.measure]
    cases layer.payload with
    | text content => exact congrArg (some <$> ·) (textBlock_congr h content (.inl rfl))
    | image source => exact congrArg (some <$> ·) (imageBlock_congr h source)
    | rotator needle => simp only [rotatorBlock_congr h]
    | bar content => simp only [measured_congr h, barOptions_congr h]
    | shape content => simp only [unmeasured_congr h, shapeOptions_congr h]
  · rw [hp, hp']
    exact congrArg (some <$> ·) (textBlock_congr h content (.inr hshows))

end MeterContext

theorem Document.foldlM_addLayer_congr {settings : Settings} {assets : AssetPlan}
    (h : List.Forall₂ (LayerSnapshot.Alike origin origin') layers layers') (doc : Document) :
    layers'.foldlM (addLayer ⟨origin', settings, assets⟩) doc =
      layers.foldlM (addLayer ⟨origin, settings, assets⟩) doc := by
  induction h generalizing doc with
  | nil => rw [List.foldlM_nil, List.foldlM_nil]
  | cons hlayer _ ih =>
    simp only [List.foldlM_cons, addLayer, MeterContext.block_congr hlayer, ih]

/-- The layers that a condition picks are alike if the condition does not tell alike layers
apart. -/
theorem filter_alike (pick : LayerSnapshot → Bool)
    (h : List.Forall₂ (LayerSnapshot.Alike origin origin') layers layers')
    (hpick : ∀ layer layer', LayerSnapshot.Alike origin origin' layer layer' →
      pick layer' = pick layer) :
    List.Forall₂ (LayerSnapshot.Alike origin origin') (layers.filter pick)
      (layers'.filter pick) :=
  List.rel_filter (fun layer layer' halike => by simp only [hpick layer layer' halike]) h

theorem names_congr (h : List.Forall₂ (LayerSnapshot.Alike origin origin') layers layers') :
    layers'.map LayerSnapshot.name = layers.map LayerSnapshot.name := by
  induction h with
  | nil => rfl
  | cons hlayer _ ih => rw [List.map_cons, List.map_cons, hlayer.name, ih]

end Parts

/-! ## Compilation -/

theorem headerSections_congr {background background' : Background}
    (hwidth : background'.width = background.width)
    (hheight : background'.height = background.height) (metadata : Metadata)
    (options : SkinOptions) :
    headerSections background' metadata options = headerSections background metadata options := by
  simp only [headerSections, engineSection, hwidth, hheight]

/-- Snapshots that are the same for a skin are compiled to the same text with the same assets and
the same layers left out, or refused for the same reason. -/
theorem compile_eq_of_alike {snapshot snapshot' : Snapshot} (h : snapshot.Alike snapshot')
    (metadata : Metadata) (options : SkinOptions) (fonts : FontCache) :
    compile snapshot metadata options fonts = compile snapshot' metadata options fonts := by
  have hshown := filter_alike LayerSnapshot.isShown h.layers
    fun _ _ halike => halike.isShown_eq
  have hskipped := filter_alike (fun layer => !layer.isShown) h.layers
    fun _ _ halike => congrArg (! ·) halike.isShown_eq
  simp only [compile, documentOf, validate_congr h, AssetPlan.ofLayers_congr fonts hshown,
    headerSections_congr h.width h.height, Document.foldlM_addLayer_congr hshown,
    names_congr hskipped]

/-- The seconds of a clock above a bar that shows nothing. -/
def clockSnapshot : Snapshot :=
  ⟨{}, [
    { name := "Clock", measure := some "time-second"
      payload := .text ⟨"12:00", "Arial", 24, ⟨"#000000", 1⟩⟩
      geometry := ⟨⟨410, 210⟩, ⟨30, 27⟩, .unit, 0⟩ },
    { name := "Load"
      payload := .bar ⟨⟨"#000000", 1⟩, ⟨"#FFA500", 1⟩⟩
      geometry := ⟨⟨400, 250⟩, ⟨200, 50⟩, .unit, 0⟩ }]⟩

/-- The same clock at the corner of the working surface, hidden, locked and with other words; the
bar is bound to a measure for texts. -/
def movedClockSnapshot : Snapshot :=
  ⟨{ position := ⟨0, 0⟩, backdropColor := "#202020" }, [
    { id := 7, name := "Clock", measure := some "time-second"
      payload := .text ⟨"45", "Arial", 24, ⟨"#000000", 1⟩⟩
      geometry := ⟨⟨10, 10⟩, ⟨30, 27⟩, .unit, 0⟩
      visible := false, locked := true },
    { id := 8, name := "Load", measure := some "time-second"
      payload := .bar ⟨⟨"#000000", 1⟩, ⟨"#FFA500", 1⟩⟩
      geometry := ⟨⟨0, 50⟩, ⟨200, 50⟩, .unit, 0⟩ }]⟩

theorem clockSnapshot_alike : clockSnapshot.Alike movedClockSnapshot := by
  unfold clockSnapshot movedClockSnapshot
  refine ⟨rfl, rfl, .cons ?clock (.cons ?bar .nil)⟩
  case clock =>
    exact ⟨rfl, by decide +kernel, .inr ⟨by decide +kernel, _, _, rfl, rfl⟩, by decide +kernel,
      rfl, rfl, rfl⟩
  case bar => exact ⟨rfl, by decide +kernel, .inl rfl, by decide +kernel, rfl, rfl, rfl⟩

/-- The clock is compiled, and to the same skin wherever it lies. -/
theorem compile_eq_of_movedClock :
    (compile clockSnapshot {} {} {}).isOk = true ∧
      compile clockSnapshot {} {} {} = compile movedClockSnapshot {} {} {} := by
  have hok : (compile clockSnapshot {} {} {}).isOk = true := by decide +kernel
  exact ⟨hok, compile_eq_of_alike clockSnapshot_alike {} {} {}⟩

end WidgetSkin
