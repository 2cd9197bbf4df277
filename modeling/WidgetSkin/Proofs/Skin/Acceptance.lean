import WidgetSkin.Proofs.Decimal.Double
import WidgetSkin.Proofs.Skin.AssetPlan
import WidgetSkin.Proofs.Skin.Frame

/-!
# What a compilation accepts

A compilation succeeds exactly on the data that keep its rules. Once the rules are kept nothing
can fail: every image of a layer that appears is planned, every measure of the catalog has a
declaration that meters can refer to, and names and keys stay on their lines.

## Main definitions

* `Acceptable` — the rules.
* `Violation` — a broken rule with the data at fault.

## Main statements

* `documentOf_eq_ok_of_checkLayer` — the declarations of layers that keep the rules.
* `exists_violation_of_validate`, `exists_violation_of_compile` — a refusal names a broken rule.
* `compile_accepts_iff` — a compilation succeeds on acceptable data and nowhere else.
-/

namespace WidgetSkin

/-! ## The rules -/

/-- The rules that a compilation asks for. -/
structure Acceptable (snapshot : Snapshot) (metadata : Metadata) (settings : Settings) :
    Prop where
  width_isFinite : snapshot.background.width.isFinite = true
  height_isFinite : snapshot.background.height.isFinite = true
  zero_le_width : 0 ≤ snapshot.background.width
  zero_le_height : 0 ≤ snapshot.background.height
  metadata_onOneLine : OnOneLine metadata.name ∧ OnOneLine metadata.author ∧
    OnOneLine metadata.version ∧ OnOneLine metadata.description
  /-- The name of the skin is one plain name. -/
  skinName_components : ∃ name,
    Path.components (metadata.directoryName settings) = [.name name]
  /-- The name of a layer can stand in brackets. -/
  layerName_plain : ∀ layer ∈ snapshot.layers,
    layer.name ≠ "" ∧ ∀ c ∈ ['[', ']', '\n', '\r'], c ∉ layer.name.toList
  fontName_onOneLine : ∀ layer ∈ snapshot.layers, ∀ content,
    layer.payload = .text content → OnOneLine content.fontName
  /-- Layers that do not appear count as well. -/
  layerNames_nodup : (snapshot.layers.map LayerSnapshot.name).Nodup

/-- A broken rule, with the data at fault. -/
inductive Violation (snapshot : Snapshot) (metadata : Metadata) (settings : Settings) :
    Invalid → Prop where
  | background (h : ¬ (snapshot.background.size.isFinite = true ∧
      0 ≤ snapshot.background.width ∧ 0 ≤ snapshot.background.height)) :
    Violation snapshot metadata settings .backgroundNegative
  | metadata {field value : String} (hmem : (field, value) ∈ metadata.fields)
      (h : ¬ OnOneLine value) :
    Violation snapshot metadata settings (.multiLineMetadata field)
  | skinName (h : ∀ name, Path.components (metadata.directoryName settings) ≠ [.name name]) :
    Violation snapshot metadata settings (.skinName (metadata.directoryName settings))
  | layerName {layer : LayerSnapshot} (hmem : layer ∈ snapshot.layers)
      (h : layer.name = "" ∨ ∃ c ∈ ['[', ']', '\n', '\r'], c ∈ layer.name.toList) :
    Violation snapshot metadata settings (.layerName layer.name)
  | fontName {layer : LayerSnapshot} {content : TextContent} (hmem : layer ∈ snapshot.layers)
      (hpayload : layer.payload = .text content) (h : ¬ OnOneLine content.fontName) :
    Violation snapshot metadata settings (.multiLineFontName layer.name)
  | duplicate {before after : List LayerSnapshot} {layer : LayerSnapshot}
      (hlayers : snapshot.layers = before ++ layer :: after)
      (h : layer.name ∈ before.map LayerSnapshot.name) :
    Violation snapshot metadata settings (.duplicateLayer layer.name)

theorem Background.isFinite_size_iff {b : Background} :
    b.size.isFinite = true ↔ b.width.isFinite = true ∧ b.height.isFinite = true := by
  simp [Background.size, Size.isFinite]

section Rules

variable {snapshot : Snapshot} {metadata : Metadata} {settings : Settings}

theorem backgroundOk_iff {b : Background} :
    checkBackground b = .ok () ↔ b.size.isFinite = true ∧ 0 ≤ b.width ∧ 0 ≤ b.height := by
  rw [checkBackground_eq_ok_iff]
  refine and_congr_right fun hfinite => ?_
  obtain ⟨hwidth, hheight⟩ := Background.isFinite_size_iff.1 hfinite
  rw [Decimal.zero_le_iff_not_lt_zero hwidth, Decimal.zero_le_iff_not_lt_zero hheight]

theorem metadataOk_iff {m : Metadata} :
    checkMetadata m = .ok () ↔ OnOneLine m.name ∧ OnOneLine m.author ∧ OnOneLine m.version ∧
      OnOneLine m.description := by
  simp [checkMetadata_eq_ok_iff, Metadata.fields, onOneLine_iff]

theorem layerOk_iff {layer : LayerSnapshot} :
    checkLayer layer = .ok () ↔
      (layer.name ≠ "" ∧ ∀ c ∈ ['[', ']', '\n', '\r'], c ∉ layer.name.toList) ∧
      ∀ content, layer.payload = .text content → OnOneLine content.fontName := by
  simp only [checkLayer_eq_ok_iff, isSectionName_iff, onOneLine_iff]

/-- Data are acceptable if and only if all checks succeed. -/
theorem acceptable_iff :
    Acceptable snapshot metadata settings ↔ validate snapshot metadata settings = .ok () := by
  rw [validate_eq_ok_iff, backgroundOk_iff, metadataOk_iff, checkSkinName_eq_ok_iff,
    Path.isSingleName_iff, Background.isFinite_size_iff]
  simp only [layerOk_iff]
  constructor
  · intro h
    exact ⟨⟨⟨h.width_isFinite, h.height_isFinite⟩, h.zero_le_width, h.zero_le_height⟩,
      h.metadata_onOneLine, h.skinName_components,
      fun layer hlayer => ⟨h.layerName_plain layer hlayer, h.fontName_onOneLine layer hlayer⟩,
      h.layerNames_nodup⟩
  · rintro ⟨⟨⟨hwidth, hheight⟩, hw, hh⟩, hmetadata, hskin, hlayers, hnodup⟩
    exact ⟨hwidth, hheight, hw, hh, hmetadata, hskin, fun layer hlayer => (hlayers layer hlayer).1,
      fun layer hlayer => (hlayers layer hlayer).2, hnodup⟩

/-! ## Refusals -/

theorem exists_violation_of_checkBackground {fault : Fault}
    (h : checkBackground snapshot.background = .error fault) :
    ∃ cause, fault = .invalid cause ∧ Violation snapshot metadata settings cause := by
  obtain ⟨-, rfl⟩ := refuseIf_eq_error_iff.1 h
  refine ⟨_, rfl, .background fun hok => ?_⟩
  rw [backgroundOk_iff.2 hok] at h
  cases h

theorem exists_violation_of_checkMetadata {fault : Fault}
    (h : checkMetadata metadata = .error fault) :
    ∃ cause, fault = .invalid cause ∧ Violation snapshot metadata settings cause := by
  have hfields : ∀ fields ⊆ metadata.fields,
      (fields.forM fun field : String × String =>
        refuseIf (!Text.isSingleLine field.2) (.multiLineMetadata field.1)) = .error fault →
      ∃ cause, fault = .invalid cause ∧ Violation snapshot metadata settings cause := by
    intro fields hsubset
    induction fields with
    | nil => simp
    | cons field fields ih =>
      intro hfailed
      obtain ⟨hfield, hsubset⟩ := List.cons_subset.1 hsubset
      rcases bind_eq_error_iff.1 hfailed with hrefused | ⟨_, -, hrest⟩
      · obtain ⟨hbroken, rfl⟩ := refuseIf_eq_error_iff.1 hrefused
        refine ⟨_, rfl, .metadata hfield ?_⟩
        simpa [onOneLine_iff] using hbroken
      · exact ih hsubset hrest
  exact hfields _ (List.Subset.refl _) h

theorem exists_violation_of_checkSkinName {fault : Fault}
    (h : checkSkinName (metadata.directoryName settings) = .error fault) :
    ∃ cause, fault = .invalid cause ∧ Violation snapshot metadata settings cause := by
  obtain ⟨hbroken, rfl⟩ := refuseIf_eq_error_iff.1 h
  refine ⟨_, rfl, .skinName fun name hname => ?_⟩
  simp [Path.isSingleName_iff.2 ⟨name, hname⟩] at hbroken

theorem exists_violation_of_checkLayer {fault : Fault} {layer : LayerSnapshot}
    (hmem : layer ∈ snapshot.layers) (h : checkLayer layer = .error fault) :
    ∃ cause, fault = .invalid cause ∧ Violation snapshot metadata settings cause := by
  unfold checkLayer at h
  rcases bind_eq_error_iff.1 h with hname | ⟨_, -, hfont⟩
  · obtain ⟨hbroken, rfl⟩ := refuseIf_eq_error_iff.1 hname
    refine ⟨_, rfl, .layerName hmem ?_⟩
    by_contra hplain
    rw [not_or, not_exists] at hplain
    have hok := isSectionName_iff.2 ⟨hplain.1, fun c hc hmem => hplain.2 c ⟨hc, hmem⟩⟩
    simp [hok] at hbroken
  · cases hp : layer.payload with
    | text content =>
      rw [hp] at hfont
      obtain ⟨hbroken, rfl⟩ := refuseIf_eq_error_iff.1 hfont
      exact ⟨_, rfl, .fontName hmem hp (by simpa [onOneLine_iff] using hbroken)⟩
    | image _ | rotator _ | bar _ | shape _ => simp [hp] at hfont

/-- The layers are looked at one after another, and each name is compared with those before. -/
theorem exists_violation_of_checkLayers {fault : Fault} {before layers : List LayerSnapshot}
    {seen : List String} (hlayers : snapshot.layers = before ++ layers)
    (hseen : ∀ name ∈ seen, name ∈ before.map LayerSnapshot.name)
    (h : checkLayers seen layers = .error fault) :
    ∃ cause, fault = .invalid cause ∧ Violation snapshot metadata settings cause := by
  induction layers generalizing before seen with
  | nil => cases h
  | cons layer layers ih =>
    have hmem : layer ∈ snapshot.layers := by simp [hlayers]
    unfold checkLayers at h
    rcases bind_eq_error_iff.1 h with hlayer | ⟨_, -, h⟩
    · exact exists_violation_of_checkLayer hmem hlayer
    rcases bind_eq_error_iff.1 h with hname | ⟨_, -, h⟩
    · obtain ⟨hbroken, rfl⟩ := refuseIf_eq_error_iff.1 hname
      exact ⟨_, rfl, .duplicate hlayers (hseen _ (by simpa using hbroken))⟩
    · refine ih (by simp [hlayers] : snapshot.layers = (before ++ [layer]) ++ layers) ?_ h
      simp only [List.map_append, List.map_cons, List.map_nil, List.mem_append, List.mem_cons,
        List.not_mem_nil, or_false]
      rintro name (rfl | hname)
      · exact .inr rfl
      · exact .inl (hseen name hname)

/-- A refusal names a rule that the data break. -/
theorem exists_violation_of_validate {fault : Fault}
    (h : validate snapshot metadata settings = .error fault) :
    ∃ cause, fault = .invalid cause ∧ Violation snapshot metadata settings cause := by
  unfold validate at h
  rcases bind_eq_error_iff.1 h with hbackground | ⟨_, -, h⟩
  · exact exists_violation_of_checkBackground hbackground
  rcases bind_eq_error_iff.1 h with hmetadata | ⟨_, -, h⟩
  · exact exists_violation_of_checkMetadata hmetadata
  rcases bind_eq_error_iff.1 h with hname | ⟨_, -, h⟩
  · exact exists_violation_of_checkSkinName hname
  · exact exists_violation_of_checkLayers (List.nil_append _).symm (by simp) h

end Rules

/-! ## Declarations of layers that keep the rules -/

namespace Document

theorem addMeasure_eq_ok_of_sound {d : MeasureDeclaration} (h : d.toSection.frame.Sound)
    (doc : Document) : ∃ doc', doc.addMeasure d = .ok doc' := by
  refine ⟨_, addMeasure_eq_ok_iff.2 ⟨⟨h.name_isSingleLine, fun key hkey => ?_⟩, rfl⟩⟩
  exact Section.isSingleLine_of_isKey (h.keys_sound.2 key (List.mem_cons_of_mem _ hkey))

theorem addMeter_eq_ok_of_sound {d : MeterDeclaration} (h : d.toSection.frame.Sound)
    (hcount : d.measures.length ≤ mostMeasures)
    (hmeasures : ∀ name ∈ d.measures, Text.isSingleLine name = true) (doc : Document) :
    ∃ doc', doc.addMeter d = .ok doc' := by
  refine ⟨_, addMeter_eq_ok_iff.2
    ⟨⟨hcount, h.name_isSingleLine, hmeasures, fun key hkey => ?_⟩, rfl⟩⟩
  refine Section.isSingleLine_of_isKey (h.keys_sound.2 key ?_)
  simp only [Section.frame, MeterDeclaration.toSection, List.map_cons, List.map_append]
  exact List.mem_cons_of_mem _ (List.mem_append_right _ hkey)

theorem foldlM_addMeasure_eq_ok_of_sound {ds : List MeasureDeclaration}
    (h : ∀ d ∈ ds, d.toSection.frame.Sound) (doc : Document) :
    ∃ doc', ds.foldlM addMeasure doc = .ok doc' := by
  induction ds generalizing doc with
  | nil => exact ⟨doc, rfl⟩
  | cons d ds ih =>
    obtain ⟨next, hnext⟩ := addMeasure_eq_ok_of_sound (h d List.mem_cons_self) doc
    rw [List.foldlM_cons, hnext, ok_bind]
    exact ih (fun e he => h e (List.mem_cons_of_mem _ he)) next

/-- The declarations of a layer whose name keeps to one line are taken. -/
theorem addBlock_blockWith {layer : LayerSnapshot} {options : List (String × String)}
    (hname : Text.isSingleLine layer.name = true)
    (hkeys : options.map Prod.fst = layer.contentKeys) (doc : Document) :
    ∃ doc', doc.addBlock (layer.blockWith options) = .ok doc' := by
  have hmeasures : ∀ d ∈ layer.declarations, d.toSection.frame.Sound := by
    intro d hd
    refine LayerSnapshot.measureFrames_sound hname (?_ : d.toSection.frame ∈ layer.measureFrames)
    rw [← layer.frame_declarations]
    exact List.mem_map_of_mem hd
  have hmeter : (layer.blockWith options).meter.toSection.frame.Sound := by
    rw [LayerSnapshot.frame_meter_blockWith hkeys]
    exact ⟨hname, layer.meterKeys_sound⟩
  have hword : Text.isSingleLine "Measure" = true := by decide
  have hreferences : layer.references.length ≤ mostMeasures ∧
      ∀ name ∈ layer.references, Text.isSingleLine name = true := by
    unfold LayerSnapshot.references
    split <;> simp [mostMeasures, measureName, hword, hname]
  obtain ⟨next, hnext⟩ := foldlM_addMeasure_eq_ok_of_sound hmeasures doc
  rw [addBlock, show (layer.blockWith options).measures = layer.declarations from rfl, hnext,
    ok_bind]
  exact addMeter_eq_ok_of_sound hmeter hreferences.1 hreferences.2 next

end Document

namespace MeterContext

/-- A layer that appears has declarations if its image is planned. -/
theorem exists_block {c : MeterContext} {layer : LayerSnapshot} (hshown : layer.isShown = true)
    (himage : ∀ source, layer.payload.imageSource? = some source →
      ∃ index, c.assets.imageIndex? source = some index) :
    ∃ b, c.block layer = .ok (some b) := by
  have hname : ∀ source, layer.payload.imageSource? = some source →
      ∃ name, c.imageName source = .ok name := by
    intro source hsource
    obtain ⟨index, hindex⟩ := himage source hsource
    exact ⟨imageReference index, by simp [imageName, hindex]⟩
  unfold block
  cases hp : layer.payload with
  | text content =>
    obtain ⟨shown, htext⟩ := c.textBlock_eq layer content
    simp only [htext, map_ok]
    exact ⟨_, rfl⟩
  | image source =>
    obtain ⟨name, hsource⟩ := hname source (by simp [hp, Payload.imageSource?])
    simp only [imageBlock, hsource, ok_bind]
    exact ⟨_, rfl⟩
  | rotator needle =>
    obtain ⟨name, hsource⟩ := hname needle.source (by simp [hp, Payload.imageSource?])
    simp only [LayerSnapshot.isShown, LayerSnapshot.kind, hp, Payload.kind] at hshown
    obtain ⟨entry, hentry⟩ := Option.isSome_iff_exists.1 hshown
    simp only [hentry, rotatorBlock, hsource, ok_bind, measured_eq hentry]
    exact ⟨_, rfl⟩
  | bar content =>
    simp only [LayerSnapshot.isShown, LayerSnapshot.kind, hp, Payload.kind] at hshown
    obtain ⟨entry, hentry⟩ := Option.isSome_iff_exists.1 hshown
    simp only [hentry, measured_eq hentry]
    exact ⟨_, rfl⟩
  | shape content => exact ⟨_, rfl⟩

end MeterContext

/-- Layers that appear are declared without fail if their names keep to one line and their images
are planned. -/
theorem Document.exists_foldlM_addLayer {c : MeterContext} {layers : List LayerSnapshot}
    (hshown : ∀ layer ∈ layers, layer.isShown = true)
    (hnames : ∀ layer ∈ layers, Text.isSingleLine layer.name = true)
    (himages : ∀ layer ∈ layers, ∀ source, layer.payload.imageSource? = some source →
      ∃ index, c.assets.imageIndex? source = some index) (doc : Document) :
    ∃ doc', layers.foldlM (addLayer c) doc = .ok doc' := by
  induction layers generalizing doc with
  | nil => exact ⟨doc, rfl⟩
  | cons layer layers ih =>
    have hmem := List.mem_cons_self (a := layer) (l := layers)
    obtain ⟨b, hb⟩ := MeterContext.exists_block (hshown layer hmem) (himages layer hmem)
    obtain ⟨options, rfl, hkeys⟩ := MeterContext.block_eq_some hb
    obtain ⟨next, hnext⟩ := addBlock_blockWith (hnames layer hmem) hkeys doc
    have hlayer : doc.addLayer c layer = .ok next := by
      rw [addLayer, hb, ok_bind]
      exact hnext
    rw [List.foldlM_cons, hlayer, ok_bind]
    exact ih (fun l hl => hshown l (List.mem_cons_of_mem _ hl))
      (fun l hl => hnames l (List.mem_cons_of_mem _ hl))
      (fun l hl => himages l (List.mem_cons_of_mem _ hl)) next

section Compiled

variable {snapshot : Snapshot} {metadata : Metadata} {options : SkinOptions} {fonts : FontCache}

/-- Once the rules are kept a compilation succeeds. -/
theorem exists_compile_of_validate (h : validate snapshot metadata options.settings = .ok ()) :
    ∃ skin, compile snapshot metadata options fonts = .ok skin := by
  obtain ⟨doc, hdoc⟩ := Document.exists_foldlM_addLayer
    (c := ⟨snapshot.background.position, options.settings,
      AssetPlan.ofLayers fonts snapshot.shown⟩)
    (fun _ => Snapshot.isShown_of_mem_shown) (isSingleLine_of_mem_shown h)
    (fun _ hlayer _ hsource => AssetPlan.exists_imageIndex?_ofLayers hlayer hsource)
    { header := headerSections snapshot.background metadata options }
  exact ⟨_, compile_eq_ok_iff.2 ⟨h, doc, hdoc, rfl⟩⟩

/-- A compilation is refused for a rule that the data break; nothing fails after that. -/
theorem exists_violation_of_compile {fault : Fault}
    (h : compile snapshot metadata options fonts = .error fault) :
    ∃ cause, fault = .invalid cause ∧ Violation snapshot metadata options.settings cause := by
  cases hvalid : validate snapshot metadata options.settings with
  | error found =>
    simp only [compile, hvalid, error_bind, Except.error.injEq] at h
    exact h ▸ exists_violation_of_validate hvalid
  | ok _ =>
    obtain ⟨skin, hskin⟩ : ∃ skin, compile snapshot metadata options fonts = .ok skin :=
      exists_compile_of_validate hvalid
    rw [hskin] at h
    cases h

/-- A compilation succeeds on acceptable data and on no others, whatever the fonts are. All other
data are refused for a rule that they break; nothing fails after that. -/
theorem compile_accepts_iff :
    ((∃ skin, compile snapshot metadata options fonts = .ok skin) ↔
      Acceptable snapshot metadata options.settings) ∧
    ∀ fault, compile snapshot metadata options fonts = .error fault →
      ∃ cause, fault = .invalid cause ∧
        Violation snapshot metadata options.settings cause := by
  rw [acceptable_iff]
  refine ⟨⟨?_, exists_compile_of_validate⟩, fun fault => exists_violation_of_compile⟩
  rintro ⟨skin, hskin⟩
  exact (compile_eq_ok_iff.1 hskin).1

/-- A text that looks like a section is acceptable, and the same text twice is not. -/
theorem compile_accepts_forgingText :
    (∃ skin, compile ⟨{}, [forgingText]⟩ {} {} {} = .ok skin) ∧
      ∃ cause, compile ⟨{}, [forgingText, forgingText]⟩ {} {} {} = .error (.invalid cause) ∧
        Violation ⟨{}, [forgingText, forgingText]⟩ {} {} cause := by
  have hacceptable : Acceptable ⟨{}, [forgingText]⟩ {} {} :=
    acceptable_iff.2 (by decide +kernel)
  have hrefused : compile ⟨{}, [forgingText, forgingText]⟩ {} {} {} =
      .error (.invalid (.duplicateLayer "Clock")) := by decide +kernel
  obtain ⟨cause, hcause, hviolation⟩ := compile_accepts_iff.2 _ hrefused
  exact ⟨compile_accepts_iff.1.2 hacceptable, cause, hcause ▸ hrefused, hviolation⟩

end Compiled

end WidgetSkin
