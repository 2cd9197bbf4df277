import Mathlib.Data.List.Induction
import WidgetSkin.Proofs.Skin.AssetPlan

/-!
# Plans in the order of first use

A plan holds each asset where it is first needed. Its images are those sources that no earlier
source names the same place as, spelled as they stand there, and its fonts are the files found for
the texts, each at its first use. What later layers need comes behind.

## Main definitions

* `firstSeen` — the items that no earlier item is the same as.
* `AssetPlan.Deduplicated` — a plan that holds each asset of its layers once.

## Main statements

* `pairwise_firstSeen` — no two of the items that are kept are the same.
* `AssetPlan.images_ofLayers`, `AssetPlan.fonts_ofLayers` — what is planned.
* `AssetPlan.ofLayers_deduplicated` — plans are complete, and layers that are added change nothing
  of what was planned.
-/

namespace WidgetSkin

/-! ## First occurrences -/

section FirstSeen

variable {α : Type} {same : α → α → Prop} [DecidableRel same]

/-- The items of a list that no earlier item is the same as. -/
def firstSeen (same : α → α → Prop) [DecidableRel same] (items : List α) : List α :=
  (items.zipIdx.filter fun pair : α × Nat =>
    decide (∀ earlier ∈ items.take pair.2, ¬ same earlier pair.1)).map Prod.fst

/-- An item behind all others is kept if none of them is the same. -/
theorem firstSeen_concat (items : List α) (item : α) :
    firstSeen same (items ++ [item]) =
      firstSeen same items ++ if ∃ earlier ∈ items, same earlier item then [] else [item] := by
  rw [firstSeen, List.zipIdx_append, List.filter_append, List.map_append, firstSeen]
  congr 1
  · -- what is kept of the others does not depend on it
    refine congrArg (List.map Prod.fst) (List.filter_congr fun pair hpair => ?_)
    have hplace : pair.2 ≤ items.length := by
      have := List.snd_lt_of_mem_zipIdx hpair
      omega
    rw [List.take_append_of_le_length hplace]
  · split <;> simp_all

theorem firstSeen_sublist (items : List α) : (firstSeen same items).Sublist items := by
  have h := (List.filter_sublist (l := items.zipIdx) (p := fun pair : α × Nat =>
    decide (∀ earlier ∈ items.take pair.2, ¬ same earlier pair.1))).map Prod.fst
  rwa [List.zipIdx_map_fst] at h

/-- No two of the items that are kept are the same. -/
theorem pairwise_firstSeen (items : List α) :
    (firstSeen same items).Pairwise fun a b => ¬ same a b := by
  induction items using List.reverseRecOn with
  | nil => exact .nil
  | append_singleton items item ih =>
    rw [firstSeen_concat]
    split
    · simpa using ih
    · next hnew =>
      refine List.pairwise_append.2 ⟨ih, List.pairwise_singleton _ _, fun earlier hearlier => ?_⟩
      have hmem : earlier ∈ items := (firstSeen_sublist items).mem hearlier
      simpa using fun hsame => hnew ⟨earlier, hmem, hsame⟩

example : firstSeen Path.SamePlace ["a//b", "a/./b", "./a/b", "a/b/"] = ["a//b", "./a/b"] := by
  decide +kernel

/-- If only an item itself is the same as it, none is missing. -/
theorem mem_firstSeen_eq [DecidableEq α] {items : List α} {item : α} :
    item ∈ firstSeen (· = ·) items ↔ item ∈ items := by
  induction items using List.reverseRecOn with
  | nil => rfl
  | append_singleton items last ih =>
    simp only [firstSeen_concat, List.mem_append, ih, exists_eq_right]
    by_cases hlast : last ∈ items <;> grind

end FirstSeen

/-! ## What is planned -/

namespace AssetPlan

variable {fonts : FontCache} {plan : AssetPlan} {layers : List LayerSnapshot}

theorem ofLayers_concat (fonts : FontCache) (layers : List LayerSnapshot) (layer : LayerSnapshot) :
    ofLayers fonts (layers ++ [layer]) = addLayer fonts (ofLayers fonts layers) layer := by
  simp [ofLayers]

/-- An image has a place in the plan of layers exactly if one of them shows the same image. -/
theorem isSome_imageIndex?_ofLayers (fonts : FontCache) (layers : List LayerSnapshot)
    (source : String) :
    ((ofLayers fonts layers).imageIndex? source).isSome ↔
      ∃ own ∈ layers.filterMap fun layer => layer.payload.imageSource?,
        Path.SamePlace own source := by
  rw [isSome_imageIndex?_iff]
  constructor
  · rintro ⟨p, hp, hsame⟩
    obtain ⟨layer, hlayer, hsource⟩ := exists_of_mem_images hp
    exact ⟨p, List.mem_filterMap.2 ⟨layer, hlayer, hsource⟩, hsame⟩
  · rintro ⟨own, hown, hsame⟩
    obtain ⟨layer, hlayer, hsource⟩ := List.mem_filterMap.1 hown
    obtain ⟨p, hp, hplace⟩ : ∃ p ∈ (ofLayers fonts layers).images, Path.SamePlace p own :=
      exists_samePlace_foldl hlayer hsource
    exact ⟨p, hp, hplace.trans hsame⟩

/-- The images of a plan are the sources of its layers, each at its first use. -/
theorem images_ofLayers (fonts : FontCache) (layers : List LayerSnapshot) :
    (ofLayers fonts layers).images =
      firstSeen Path.SamePlace (layers.filterMap fun layer => layer.payload.imageSource?) := by
  induction layers using List.reverseRecOn with
  | nil => rfl
  | append_singleton layers layer ih =>
    rw [ofLayers_concat, images_addLayer, List.filterMap_append]
    cases hsource : layer.payload.imageSource? with
    | none => simpa [hsource] using ih
    | some source =>
      have hplanned := isSome_imageIndex?_ofLayers fonts layers source
      simp only [List.filterMap_cons, hsource, List.filterMap_nil, firstSeen_concat, ← hplanned,
        Option.elim_some, images_addImage, ih]
      cases (ofLayers fonts layers).imageIndex? source <;> simp

/-- The fonts of a plan are the files found for the texts of its layers, each at its first use. -/
theorem fonts_ofLayers (fonts : FontCache) (layers : List LayerSnapshot) :
    (ofLayers fonts layers).fonts = firstSeen (· = ·) (layers.filterMap (fontOf? fonts)) := by
  induction layers using List.reverseRecOn with
  | nil => rfl
  | append_singleton layers layer ih =>
    rw [ofLayers_concat, fonts_addLayer, List.filterMap_append]
    cases hfont : fontOf? fonts layer with
    | none => simpa [hfont] using ih
    | some fileName =>
      simp only [List.filterMap_cons, hfont, List.filterMap_nil, firstSeen_concat,
        Option.elim_some, fonts_addFont, ih, mem_firstSeen_eq, exists_eq_right]

/-! ## Places -/

/-- If no two images of a plan are the same, the place of an image is the one where a path to it
stands. -/
theorem imageIndex?_eq_some_iff {source : String} {index : Nat}
    (hdistinct : plan.images.Pairwise fun p q => ¬ Path.SamePlace p q) :
    plan.imageIndex? source = some index ↔
      ∃ p, plan.images[index]? = some p ∧ Path.SamePlace p source := by
  refine ⟨samePlace_of_imageIndex?, ?_⟩
  rintro ⟨p, hp, hsame⟩
  obtain ⟨hindex, rfl⟩ := List.getElem?_eq_some_iff.1 hp
  refine List.findIdx?_eq_some_iff_getElem.2 ⟨hindex, by simpa using hsame, fun earlier hlt => ?_⟩
  have hother := List.pairwise_iff_getElem.1 hdistinct earlier index (by omega) hindex hlt
  simpa using fun heq : Path.SamePlace _ source => hother (heq.trans hsame.symm)

/-- A file is found for the font of a text, in the first entry with the name of the font. -/
theorem fontOf?_eq_some_iff {layer : LayerSnapshot} {fileName : String} :
    fontOf? fonts layer = some fileName ↔
      ∃ content before entry after, layer.payload = .text content ∧
        fonts.entries = before ++ entry :: after ∧ entry.displayName = content.fontName ∧
        (∀ other ∈ before, other.displayName ≠ content.fontName) ∧
        entry.fileName = fileName := by
  unfold fontOf?
  cases layer.payload <;> simp [FontCache.find?, List.find?_eq_some_iff_append]
  grind

/-- A plan holds each asset of its layers once, in the order in which they are needed. -/
structure Deduplicated (fonts : FontCache) (layers : List LayerSnapshot) (plan : AssetPlan) :
    Prop where
  /-- Images are spelled as they are first seen. -/
  images_eq : plan.images =
    firstSeen Path.SamePlace (layers.filterMap fun layer => layer.payload.imageSource?)
  pairwise_images : plan.images.Pairwise fun p q => ¬ Path.SamePlace p q
  place_iff : ∀ source index, plan.imageIndex? source = some index ↔
    ∃ p, plan.images[index]? = some p ∧ Path.SamePlace p source
  /-- The images of the layers have places, and no others. -/
  planned_iff : ∀ source, (plan.imageIndex? source).isSome ↔
    ∃ layer ∈ layers, ∃ own, layer.payload.imageSource? = some own ∧ Path.SamePlace own source
  /-- Layers share a place exactly if they show one image. -/
  shared_iff : ∀ layer ∈ layers, ∀ other ∈ layers, ∀ source source',
    layer.payload.imageSource? = some source → other.payload.imageSource? = some source' →
    (plan.imageIndex? source = plan.imageIndex? source' ↔ Path.SamePlace source source')
  fonts_eq : plan.fonts = firstSeen (· = ·) (layers.filterMap (fontOf? fonts))
  nodup_fonts : plan.fonts.Nodup

theorem deduplicated_ofLayers (fonts : FontCache) (layers : List LayerSnapshot) :
    Deduplicated fonts layers (ofLayers fonts layers) := by
  have hdistinct : (ofLayers fonts layers).images.Pairwise fun p q => ¬ Path.SamePlace p q := by
    rw [images_ofLayers]
    exact pairwise_firstSeen _
  have hplace : ∀ source index, (ofLayers fonts layers).imageIndex? source = some index ↔
      ∃ p, (ofLayers fonts layers).images[index]? = some p ∧ Path.SamePlace p source :=
    fun _ _ => imageIndex?_eq_some_iff hdistinct
  refine ⟨images_ofLayers fonts layers, hdistinct, hplace, fun source => ?_, ?_,
    fonts_ofLayers fonts layers, ?_⟩
  · rw [isSome_imageIndex?_ofLayers]
    grind
  · intro layer hlayer other hother source source' hsource hsource'
    obtain ⟨index, hindex⟩ : ∃ index, (ofLayers fonts layers).imageIndex? source = some index :=
      exists_imageIndex?_ofLayers hlayer hsource
    obtain ⟨p, hp, hsame⟩ := (hplace source index).1 hindex
    refine ⟨fun heq => ?_, fun heq => ?_⟩
    · obtain ⟨q, hq, hsame'⟩ := (hplace source' index).1 (heq ▸ hindex)
      obtain rfl := Option.some.inj (hp.symm.trans hq)
      exact hsame.symm.trans hsame'
    · rw [hindex, ((hplace source' index).2 ⟨p, hp, hsame.trans heq⟩)]
  · rw [fonts_ofLayers]
    exact pairwise_firstSeen _

/-- The plan of layers holds the image of every raster layer and the file of the first entry for
the font of every text, each once and in the order of first use, and layers that are added change
nothing of what was planned. -/
theorem ofLayers_deduplicated (fonts : FontCache) (layers : List LayerSnapshot) :
    Deduplicated fonts layers (ofLayers fonts layers) ∧
    (∀ layer fileName, fontOf? fonts layer = some fileName ↔
      ∃ content before entry after, layer.payload = .text content ∧
        fonts.entries = before ++ entry :: after ∧ entry.displayName = content.fontName ∧
        (∀ other ∈ before, other.displayName ≠ content.fontName) ∧
        entry.fileName = fileName) ∧
    ∀ more, (ofLayers fonts layers).images <+: (ofLayers fonts (layers ++ more)).images ∧
      (ofLayers fonts layers).fonts <+: (ofLayers fonts (layers ++ more)).fonts :=
  ⟨deduplicated_ofLayers fonts layers, fun _ _ => fontOf?_eq_some_iff,
    fun more => by
      rw [ofLayers, ofLayers, List.foldl_append]
      exact prefix_foldl _ more⟩

end AssetPlan

end WidgetSkin
