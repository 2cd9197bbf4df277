import WidgetSkin.Skin.AssetPlan

/-!
# What is planned

The plan of a list of layers has a place for every image that the layers show, and nothing is
planned without a layer that needs it.

## Main statements

* `AssetPlan.prefix_foldl` — more layers change nothing of what was planned.
* `AssetPlan.exists_imageIndex?_ofLayers` — every image of the layers has a place.
* `AssetPlan.exists_of_mem_images`, `AssetPlan.exists_of_mem_fonts` — what is planned is needed.
* `AssetPlan.samePlace_of_imageIndex?` — what stands at the place of an image.
-/

namespace WidgetSkin.AssetPlan

variable {fonts : FontCache} {plan : AssetPlan} {layer : LayerSnapshot}
  {layers : List LayerSnapshot} {source fileName : String}

/-! ## Places -/

theorem isSome_imageIndex?_iff :
    (plan.imageIndex? source).isSome ↔ ∃ p ∈ plan.images, Path.SamePlace p source := by
  simp [imageIndex?]

/-- At the place of an image stands a path to the same file. -/
theorem samePlace_of_imageIndex? {index : Nat} (h : plan.imageIndex? source = some index) :
    ∃ p, plan.images[index]? = some p ∧ Path.SamePlace p source := by
  obtain ⟨hlt, hsame, -⟩ := List.findIdx?_eq_some_iff_getElem.1 h
  exact ⟨plan.images[index], List.getElem?_eq_getElem hlt, by simpa using hsame⟩

/-! ## One layer -/

@[simp] theorem images_addFont : (plan.addFont fileName).images = plan.images := by
  unfold addFont
  split <;> rfl

@[simp] theorem fonts_addImage : (plan.addImage source).fonts = plan.fonts := by
  unfold addImage
  split <;> rfl

theorem images_addImage : (plan.addImage source).images =
    (plan.imageIndex? source).elim (plan.images ++ [source]) fun _ => plan.images := by
  unfold addImage
  cases plan.imageIndex? source <;> rfl

theorem fonts_addFont (plan : AssetPlan) (fileName : String) :
    (plan.addFont fileName).fonts =
      plan.fonts ++ if fileName ∈ plan.fonts then [] else [fileName] := by
  unfold addFont
  split <;> simp_all

theorem mem_fonts_addFont {f : String} (h : f ∈ (plan.addFont fileName).fonts) :
    f ∈ plan.fonts ∨ f = fileName := by
  rw [fonts_addFont, List.mem_append] at h
  refine h.imp_right fun h => ?_
  split at h <;> simp_all

theorem mem_images_addImage {p : String} (h : p ∈ (plan.addImage source).images) :
    p ∈ plan.images ∨ p = source := by
  rw [images_addImage] at h
  cases hplace : plan.imageIndex? source with
  | none => simpa [hplace] using h
  | some index => exact .inl (by simpa [hplace] using h)

theorem images_prefix_addImage : plan.images <+: (plan.addImage source).images := by
  rw [images_addImage]
  cases plan.imageIndex? source with
  | none => exact List.prefix_append _ _
  | some index => exact List.prefix_rfl

theorem isSome_imageIndex?_addImage : ((plan.addImage source).imageIndex? source).isSome := by
  unfold addImage
  split
  · assumption
  · exact isSome_imageIndex?_iff.2 ⟨source, by simp, .refl source⟩

theorem images_addLayer :
    (addLayer fonts plan layer).images =
      (layer.payload.imageSource?.elim plan plan.addImage).images := by
  have hfont : ((fontOf? fonts layer).elim plan plan.addFont).images = plan.images := by
    cases fontOf? fonts layer <;> simp
  unfold addLayer
  cases layer.payload.imageSource? with
  | none => exact hfont
  | some source => simp only [Option.elim_some, images_addImage, imageIndex?, hfont]

theorem fonts_addLayer :
    (addLayer fonts plan layer).fonts =
      ((fontOf? fonts layer).elim plan plan.addFont).fonts := by
  unfold addLayer
  cases layer.payload.imageSource? <;> simp

theorem images_prefix_addLayer : plan.images <+: (addLayer fonts plan layer).images := by
  rw [images_addLayer]
  cases layer.payload.imageSource? with
  | none => exact List.prefix_rfl
  | some source => exact images_prefix_addImage

theorem fonts_prefix_addLayer : plan.fonts <+: (addLayer fonts plan layer).fonts := by
  rw [fonts_addLayer]
  cases fontOf? fonts layer with
  | none => exact List.prefix_rfl
  | some fileName =>
    rw [Option.elim_some, fonts_addFont]
    exact List.prefix_append _ _

theorem mem_images_addLayer {p : String} (h : p ∈ (addLayer fonts plan layer).images) :
    p ∈ plan.images ∨ layer.payload.imageSource? = some p := by
  rw [images_addLayer] at h
  cases hs : layer.payload.imageSource? with
  | none => exact .inl (by simpa [hs] using h)
  | some source =>
    rw [hs] at h
    exact (mem_images_addImage h).imp_right fun heq => by rw [heq]

theorem mem_fonts_addLayer {f : String} (h : f ∈ (addLayer fonts plan layer).fonts) :
    f ∈ plan.fonts ∨ fontOf? fonts layer = some f := by
  rw [fonts_addLayer] at h
  cases hf : fontOf? fonts layer with
  | none => exact .inl (by simpa [hf] using h)
  | some fileName =>
    rw [hf] at h
    exact (mem_fonts_addFont h).imp_right fun heq => by rw [heq]

theorem exists_samePlace_addLayer (plan : AssetPlan)
    (h : layer.payload.imageSource? = some source) :
    ∃ p ∈ (addLayer fonts plan layer).images, Path.SamePlace p source := by
  rw [images_addLayer, h]
  exact isSome_imageIndex?_iff.1 isSome_imageIndex?_addImage

/-! ## All layers -/

/-- More layers change nothing of what was planned. -/
theorem prefix_foldl (plan : AssetPlan) (layers : List LayerSnapshot) :
    plan.images <+: (layers.foldl (addLayer fonts) plan).images ∧
    plan.fonts <+: (layers.foldl (addLayer fonts) plan).fonts := by
  induction layers generalizing plan with
  | nil => exact ⟨List.prefix_rfl, List.prefix_rfl⟩
  | cons layer layers ih =>
    exact ⟨images_prefix_addLayer.trans (ih _).1, fonts_prefix_addLayer.trans (ih _).2⟩

theorem exists_samePlace_foldl (hlayer : layer ∈ layers)
    (hsource : layer.payload.imageSource? = some source) :
    ∃ p ∈ (layers.foldl (addLayer fonts) plan).images, Path.SamePlace p source := by
  induction layers generalizing plan with
  | nil => cases hlayer
  | cons first layers ih =>
    rcases List.mem_cons.1 hlayer with rfl | hlayer
    · obtain ⟨p, hp, hsame⟩ := exists_samePlace_addLayer plan hsource
      exact ⟨p, (prefix_foldl (addLayer fonts plan layer) layers).1.mem hp, hsame⟩
    · exact ih hlayer

/-- Every image that one of the layers shows has a place in their plan. -/
theorem exists_imageIndex?_ofLayers (hlayer : layer ∈ layers)
    (hsource : layer.payload.imageSource? = some source) :
    ∃ index, (ofLayers fonts layers).imageIndex? source = some index :=
  Option.isSome_iff_exists.1 (isSome_imageIndex?_iff.2 (exists_samePlace_foldl hlayer hsource))

theorem mem_images_foldl {p : String} (h : p ∈ (layers.foldl (addLayer fonts) plan).images) :
    p ∈ plan.images ∨ ∃ layer ∈ layers, layer.payload.imageSource? = some p := by
  induction layers generalizing plan with
  | nil => exact .inl h
  | cons first layers ih =>
    rcases ih h with h | ⟨layer, hlayer, hsource⟩
    · refine (mem_images_addLayer h).imp_right fun hsource => ?_
      exact ⟨first, List.mem_cons_self, hsource⟩
    · exact .inr ⟨layer, List.mem_cons_of_mem _ hlayer, hsource⟩

theorem mem_fonts_foldl {f : String} (h : f ∈ (layers.foldl (addLayer fonts) plan).fonts) :
    f ∈ plan.fonts ∨ ∃ layer ∈ layers, fontOf? fonts layer = some f := by
  induction layers generalizing plan with
  | nil => exact .inl h
  | cons first layers ih =>
    rcases ih h with h | ⟨layer, hlayer, hfont⟩
    · refine (mem_fonts_addLayer h).imp_right fun hfont => ?_
      exact ⟨first, List.mem_cons_self, hfont⟩
    · exact .inr ⟨layer, List.mem_cons_of_mem _ hlayer, hfont⟩

/-- Every planned image is shown by one of the layers. -/
theorem exists_of_mem_images {p : String} (h : p ∈ (ofLayers fonts layers).images) :
    ∃ layer ∈ layers, layer.payload.imageSource? = some p :=
  (mem_images_foldl h).resolve_left List.not_mem_nil

/-- Every planned font is the file that was found for the font of a text among the layers. -/
theorem exists_of_mem_fonts {f : String} (h : f ∈ (ofLayers fonts layers).fonts) :
    ∃ layer ∈ layers, ∃ content, layer.payload = .text content ∧
      ∃ entry, fonts.find? content.fontName = some entry ∧ entry.fileName = f := by
  obtain ⟨layer, hlayer, hfont⟩ := (mem_fonts_foldl h).resolve_left List.not_mem_nil
  unfold fontOf? at hfont
  cases hp : layer.payload with
  | text content =>
    rw [hp] at hfont
    obtain ⟨entry, hentry, hname⟩ := Option.map_eq_some_iff.1 hfont
    exact ⟨layer, hlayer, content, hp, entry, hentry, hname⟩
  | image _ | rotator _ | bar _ | shape _ => simp [hp] at hfont

end WidgetSkin.AssetPlan
