import WidgetSkin.Proofs.Skin.AssetPlan
import WidgetSkin.Proofs.Skin.Frame

/-!
# References in a compiled skin

The sections of a skin refer to each other by name: a meter to the measure of its layer, a
formula to other declarations of the same measure, and the meter of a raster layer to a place
among the planned images. Every such reference leads somewhere, and every declaration of a
measure and every planned asset is there for something that refers to it.

## Main definitions

* `Section.valuesOf`, `Section.measureReferences` — what a section refers to.
* `LayerSnapshot.ShowsMeasure` — a layer shows a measure of the catalog.
* `LayerSections` — the sections of one layer in a skin file.
* `LayerSections.Resolved` — all references of these sections lead somewhere.

## Main statements

* `Catalog.declarations_eq` — the recipes of the catalog.
* `MeterContext.resolved_of_block` — the references of one layer.
* `compile_resolves` — all references of a compiled skin.
-/

namespace WidgetSkin

/-! ## What a section refers to -/

namespace Section

/-- The values under the keys that `select` takes. -/
def valuesWhere (s : Section) (select : String → Bool) : List String :=
  (s.entries.filter fun entry => select entry.1).map Prod.snd

/-- The values under a key. -/
def valuesOf (s : Section) (key : String) : List String :=
  s.valuesWhere (· == key)

/-- The word that the keys of references to measures begin with. -/
def referenceKey : List Char :=
  "MeasureName".toList

/-- The measures that a section refers to. -/
def measureReferences (s : Section) : List String :=
  s.valuesWhere fun key => referenceKey.isPrefixOf key.toList

theorem valuesWhere_encoded (s : Section) (select : String → Bool) :
    s.encoded.valuesWhere select = (s.valuesWhere select).map Text.LineBreak.encode := by
  simp only [valuesWhere, encoded, List.filter_map, List.map_map]
  rfl

/-- Values that keep to one line are read back as they were. -/
theorem valuesWhere_encoded_eq {s : Section} {select : String → Bool} {values : List String}
    (h : s.valuesWhere select = values)
    (hlines : ∀ value ∈ values, Text.isSingleLine value = true) :
    s.encoded.valuesWhere select = values := by
  rw [valuesWhere_encoded, h, List.map_congr_left fun value hvalue =>
    Text.LineBreak.encode_eq_self (hlines value hvalue), List.map_id']

theorem valuesWhere_eq_nil {s : Section} {select : String → Bool}
    (h : ∀ key ∈ s.frame.keys, select key = false) : s.valuesWhere select = [] := by
  simp only [frame, List.forall_mem_map] at h
  simpa [valuesWhere, List.filter_eq_nil_iff] using h

end Section

/-! ## The recipes of the catalog -/

/-- A measure of the catalog has one declaration, which is no formula, or the declarations of
the used share of a volume. -/
theorem Catalog.declarations_eq {entry : MeasureEntry} (h : entry ∈ Catalog.entries) :
    (entry.recipe.declarations.map Declaration.suffix = [""] ∧
      ∀ d ∈ entry.recipe.declarations, "Formula" ∉ d.options.map Prod.fst) ∨
    entry.recipe.declarations = Catalog.diskShare := by
  revert entry
  decide +kernel

namespace Declaration

theorem go_eq_go_drop (name : List Char) (skip : Nat) (cs : List Char) :
    fillIn.go name skip cs = fillIn.go name 0 (cs.drop skip) := by
  induction skip generalizing cs with
  | zero => rfl
  | succ skip ih =>
    cases cs with
    | nil => rfl
    | cons c cs => exact ih cs

/-- The name goes into a place for it, and what follows is filled in on its own. -/
theorem fillIn_namePlace_append (name cs : List Char) :
    fillIn name (namePlace ++ cs) = name ++ fillIn name cs := by
  have hplace : namePlace = '\x7b' :: namePlace.tail := by decide
  have hfound : namePlace.isPrefixOf ('\x7b' :: (namePlace.tail ++ cs)) = true := by
    rw [← List.cons_append, ← hplace]
    exact List.isPrefixOf_iff_prefix.2 (List.prefix_append _ _)
  have hrest : (namePlace.tail ++ cs).drop (namePlace.length - 1) = cs :=
    List.drop_left' (by decide)
  rw [fillIn, hplace, List.cons_append, fillIn.go, if_pos hfound, go_eq_go_drop, hrest]
  rfl

/-- Texts without an opening brace stay as they are. -/
theorem fillIn_append {name before : List Char} (h : '\x7b' ∉ before) (cs : List Char) :
    fillIn name (before ++ cs) = before ++ fillIn name cs := by
  induction before with
  | nil => rfl
  | cons c before ih =>
    have hc : c ≠ '\x7b' := fun hc => h (hc ▸ List.mem_cons_self)
    have hnot : namePlace.isPrefixOf (c :: (before ++ cs)) = false := by
      rw [show namePlace = '\x7b' :: namePlace.tail from by decide, List.isPrefixOf,
        beq_eq_false_iff_ne.2 (Ne.symm hc), Bool.false_and]
    rw [List.cons_append, fillIn, fillIn.go, hnot]
    exact congrArg (c :: ·) (ih fun hmem => h (List.mem_cons_of_mem _ hmem))

/-- The formula of the used share names the two declarations before it, whatever the name of the
measure is made of. -/
theorem fillIn_diskShare (name : String) :
    String.ofList (fillIn name.toList "\x7bmeasure\x7dUsed / \x7bmeasure\x7dTotal".toList) =
      (name ++ "Used") ++ " / " ++ (name ++ "Total") := by
  have hshape : "\x7bmeasure\x7dUsed / \x7bmeasure\x7dTotal".toList =
      namePlace ++ ("Used / ".toList ++ (namePlace ++ ("Total".toList ++ []))) := by decide
  have hwords : "Used / ".toList = "Used".toList ++ " / ".toList := by decide
  rw [hshape, fillIn_namePlace_append, fillIn_append (by decide), fillIn_namePlace_append,
    fillIn_append (by decide), show fillIn name.toList [] = [] from rfl, List.append_nil, hwords,
    ← String.toList_inj]
  simp only [String.toList_ofList, String.toList_append, List.append_assoc]

end Declaration

/-! ## The sections of one layer -/

/-- The measure of a layer is an entry of the catalog for layers of its kind. -/
def LayerSnapshot.ShowsMeasure (layer : LayerSnapshot) : Prop :=
  ∃ id entry, layer.measure = some id ∧ Catalog.find? id = some entry ∧ entry.kind = layer.kind

theorem LayerSnapshot.showsMeasure_iff {layer : LayerSnapshot} :
    layer.ShowsMeasure ↔ layer.catalogMeasure?.isSome = true := by
  simp only [ShowsMeasure, catalogMeasure?, Catalog.resolve?, Option.isSome_iff_exists,
    Option.filter_eq_some_iff, Option.bind_eq_some_iff, decide_eq_true_eq]
  constructor
  · rintro ⟨id, entry, hmeasure, hfind, hkind⟩
    exact ⟨entry, ⟨id, hmeasure, hfind⟩, hkind⟩
  · rintro ⟨entry, ⟨id, hmeasure, hfind⟩, hkind⟩
    exact ⟨id, entry, hmeasure, hfind, hkind⟩

/-- The sections of one layer in a skin file. -/
structure LayerSections where
  measures : List Section
  meter : Section

/-- All references of the sections of a layer lead somewhere, and every section of its measure is
there for one of them. -/
structure LayerSections.Resolved (assets : AssetPlan) (layer : LayerSnapshot)
    (sections : LayerSections) : Prop where
  meter_name : sections.meter.name = layer.name
  /-- The meter refers to one measure if the layer shows one, -/
  reference_mem : layer.ShowsMeasure → ∃ reference ∈ sections.measures.map Section.name,
    sections.meter.measureReferences = [reference]
  /-- and otherwise to none. -/
  references_eq_nil : ¬ layer.ShowsMeasure → sections.meter.measureReferences = []
  /-- Both names in a formula are those of sections before it. -/
  formula_names_mem : ∀ before s after, sections.measures = before ++ s :: after →
    ∀ formula ∈ s.valuesOf "Formula", ∃ used total,
      formula = used ++ " / " ++ total ∧
      used = measureName layer.name ++ "Used" ∧ used ∈ before.map Section.name ∧
      total = measureName layer.name ++ "Total" ∧ total ∈ before.map Section.name
  /-- Every section of the measure is named by the meter or in a formula. -/
  measure_referenced : ∀ s ∈ sections.measures,
    s.name ∈ sections.meter.measureReferences ∨
    ∃ t ∈ sections.measures, ∃ formula ∈ t.valuesOf "Formula",
      s.name.toList <:+: formula.toList
  /-- The meter of a raster layer names the place of its image in the plan. -/
  image_planned : ∀ source, layer.payload.imageSource? = some source →
    ∃ (index : Nat) (path : String), assets.images[index]? = some path ∧
      Path.SamePlace path source ∧
      sections.meter.valuesOf "ImageName" = ["#@#Images/" ++ toString index ++ ".png"]

/-- The sections that a block is read back as. -/
def Block.sections (b : Block) : LayerSections where
  measures := b.measures.map fun d => d.toSection.encoded
  meter := b.meter.toSection.encoded

namespace LayerSnapshot

/-- Content is described under keys that refer to no measure. -/
theorem contentKeys_not_reference (layer : LayerSnapshot) :
    ∀ key ∈ layer.contentKeys, Section.referenceKey.isPrefixOf key.toList = false := by
  unfold contentKeys
  cases layer.payload with
  | rotator _ =>
    dsimp only
    generalize (layer.catalogMeasure?.bind (·.recipe.valueRemainder)).isSome = cyclic
    cases cyclic <;> decide +kernel
  | shape content =>
    dsimp only
    cases content.outline <;> decide +kernel
  | text _ | image _ | bar _ =>
    dsimp only
    decide +kernel

/-- The meter of a layer refers to the measure that the layer shows. -/
theorem measureReferences_blockWith {layer : LayerSnapshot} {options : List (String × String)}
    (hkeys : options.map Prod.fst = layer.contentKeys) :
    (layer.blockWith options).meter.toSection.measureReferences = layer.references := by
  have hoptions : options.filter (fun entry =>
      Section.referenceKey.isPrefixOf entry.1.toList) = [] := by
    rw [List.filter_eq_nil_iff]
    intro entry hentry
    rw [layer.contentKeys_not_reference entry.1 (hkeys ▸ List.mem_map_of_mem hentry)]
    decide
  have hwords : Section.referenceKey.isPrefixOf "Meter".toList = false ∧
      Section.referenceKey.isPrefixOf "MeasureName".toList = true := by decide
  simp only [Section.measureReferences, Section.valuesWhere, MeterDeclaration.toSection, blockWith,
    MeterDeclaration.references, List.filter_cons, hwords.1, Bool.false_eq_true, if_false,
    List.filter_append, hoptions, List.append_nil]
  unfold references
  split
  · change (List.filter _ [("MeasureName", measureName layer.name)]).map Prod.snd = _
    rw [List.filter_cons, if_pos hwords.2]
    rfl
  · rfl

/-- The declarations of the used share of a volume, which names the two before it. -/
theorem declarations_of_diskShare {layer : LayerSnapshot} {entry : MeasureEntry}
    (hentry : layer.catalogMeasure? = some entry)
    (h : entry.recipe.declarations = Catalog.diskShare) :
    layer.declarations =
      [⟨measureName layer.name ++ "Total", .diskSpace,
          [("Drive", "C:"), ("Total", "1"), ("UpdateDivider", "5")]⟩,
        ⟨measureName layer.name ++ "Used", .diskSpace,
          [("Drive", "C:"), ("InvertMeasure", "1"), ("UpdateDivider", "5")]⟩,
        ⟨measureName layer.name, .formula,
          [("Formula", (measureName layer.name ++ "Used") ++ " / " ++
            (measureName layer.name ++ "Total")), ("UpdateDivider", "5")]⟩] := by
  have hplain : ∀ (name : List Char), ∀ value ∈ ["C:", "1", "5"],
      Declaration.fillIn name value.toList = value.toList := by
    intro name value hvalue
    have hbrace : ∀ value ∈ ["C:", "1", "5"], '\x7b' ∉ value.toList := by decide
    simpa [Declaration.fillIn, Declaration.fillIn.go] using
      Declaration.fillIn_append (hbrace value hvalue) []
  simp only [declarations, hentry, MeasureEntry.declarationsFor, h, Catalog.diskShare,
    Catalog.drive, Catalog.divider, List.map_cons, List.map_nil, Declaration.nameFor,
    Declaration.optionsFor, Declaration.fillIn_diskShare, hplain _ "C:" (by decide),
    hplain _ "1" (by decide), hplain _ "5" (by decide), String.ofList_toList,
    String.append_empty]

/-- The sections of the measure that a layer shows, as they are read back. -/
def measureSections (layer : LayerSnapshot) : List Section :=
  layer.declarations.map fun d => d.toSection.encoded

theorem measureSections_eq_nil {layer : LayerSnapshot} (h : ¬ layer.ShowsMeasure) :
    layer.measureSections = [] := by
  rw [showsMeasure_iff, Option.not_isSome_iff_eq_none] at h
  simp [measureSections, declarations, h]

/-- The sections of a single declaration hold no formula. -/
theorem valuesOf_formula_of_single {layer : LayerSnapshot} {entry : MeasureEntry}
    (hentry : layer.catalogMeasure? = some entry)
    (h : ∀ d ∈ entry.recipe.declarations, "Formula" ∉ d.options.map Prod.fst) {s : Section}
    (hs : s ∈ layer.measureSections) : s.valuesOf "Formula" = [] := by
  simp only [measureSections, declarations, hentry, MeasureEntry.declarationsFor, List.map_map,
    List.mem_map, Function.comp_apply] at hs
  obtain ⟨d, hd, rfl⟩ := hs
  have hkey : ∀ key ∈ "Measure" :: d.options.map Prod.fst, (key == "Formula") = false := by
    intro key hkey
    rcases List.mem_cons.1 hkey with rfl | hkey
    · decide
    · exact beq_eq_false_iff_ne.2 fun heq => h d hd (heq ▸ hkey)
  refine Section.valuesWhere_eq_nil fun key hmem => hkey key ?_
  simpa [Section.frame, Section.encoded, MeasureDeclaration.toSection, Declaration.optionsFor,
    Function.comp_def] using hmem

/-- The names of the sections of a layer's measure, and their formulas: there is one section
without a formula, or the formula of the third names the two before it. -/
theorem measureSections_cases {layer : LayerSnapshot} (hshows : layer.ShowsMeasure)
    (hname : Text.isSingleLine layer.name = true) :
    (layer.measureSections.map Section.name = [measureName layer.name] ∧
      ∀ s ∈ layer.measureSections, s.valuesOf "Formula" = []) ∨
    ∃ total used share, layer.measureSections = [total, used, share] ∧
      total.name = measureName layer.name ++ "Total" ∧ total.valuesOf "Formula" = [] ∧
      used.name = measureName layer.name ++ "Used" ∧ used.valuesOf "Formula" = [] ∧
      share.name = measureName layer.name ∧
      share.valuesOf "Formula" = [used.name ++ " / " ++ total.name] := by
  obtain ⟨entry, hentry⟩ := Option.isSome_iff_exists.1 (showsMeasure_iff.1 hshows)
  rcases Catalog.declarations_eq (catalogMeasure?_eq_some hentry).1 with
    ⟨hsuffixes, hformula⟩ | hshare
  · refine .inl ⟨?_, fun s => valuesOf_formula_of_single hentry hformula⟩
    have hnames : layer.measureSections.map Section.name =
        (entry.recipe.declarations.map Declaration.suffix).map (measureName layer.name ++ ·) := by
      simp [measureSections, declarations, hentry, MeasureEntry.declarationsFor,
        Section.encoded, MeasureDeclaration.toSection, Declaration.nameFor, Function.comp_def]
    rw [hnames, hsuffixes]
    simp
  · have hwords : ∀ word ∈ ["Measure", "Used", "Total", " / "],
        Text.isSingleLine word = true := by decide
    refine .inr ⟨_, _, _, by rw [measureSections, declarations_of_diskShare hentry hshare]; rfl,
      rfl, rfl, rfl, rfl, rfl, ?_⟩
    refine Section.valuesWhere_encoded_eq rfl (List.forall_mem_singleton.2 ?_)
    simp [Section.encoded, MeasureDeclaration.toSection, measureName, hname, hwords]

/-- A formula names two sections before its own. -/
theorem formula_names_mem {layer : LayerSnapshot} (hname : Text.isSingleLine layer.name = true)
    {before after : List Section} {s : Section}
    (hsplit : layer.measureSections = before ++ s :: after) {formula : String}
    (hformula : formula ∈ s.valuesOf "Formula") :
    ∃ used total, formula = used ++ " / " ++ total ∧
      used = measureName layer.name ++ "Used" ∧ used ∈ before.map Section.name ∧
      total = measureName layer.name ++ "Total" ∧ total ∈ before.map Section.name := by
  by_cases hshows : layer.ShowsMeasure
  · rcases measureSections_cases hshows hname with
      ⟨-, hnone⟩ | ⟨total, used, share, hsections, htotal, htotalNone, hused, husedNone, -, hshare⟩
    · simp [hnone s (by simp [hsplit])] at hformula
    · rw [hsections] at hsplit
      -- Only the third section has a formula.
      rcases before with _ | ⟨first, _ | ⟨second, _ | ⟨third, rest⟩⟩⟩
      · obtain ⟨rfl, -⟩ := List.cons.inj hsplit
        simp [htotalNone] at hformula
      · simp only [List.cons_append, List.nil_append, List.cons.injEq] at hsplit
        obtain ⟨-, rfl, -⟩ := hsplit
        simp [husedNone] at hformula
      · simp only [List.cons_append, List.nil_append, List.cons.injEq] at hsplit
        obtain ⟨rfl, rfl, rfl, -⟩ := hsplit
        rw [hshare, List.mem_singleton] at hformula
        exact ⟨used.name, total.name, hformula, hused, by simp, htotal, by simp⟩
      · simp at hsplit
  · simp [measureSections_eq_nil hshows] at hsplit

/-- Every section of the measure is the one that meters refer to, or stands in a formula. -/
theorem measureSections_referenced {layer : LayerSnapshot}
    (hname : Text.isSingleLine layer.name = true) {s : Section}
    (hs : s ∈ layer.measureSections) :
    s.name ∈ layer.references ∨
    ∃ t ∈ layer.measureSections, ∃ formula ∈ t.valuesOf "Formula",
      s.name.toList <:+: formula.toList := by
  by_cases hshows : layer.ShowsMeasure
  · have hreferences : layer.references = [measureName layer.name] :=
      if_pos (showsMeasure_iff.1 hshows)
    rw [hreferences, List.mem_singleton]
    rcases measureSections_cases hshows hname with
      ⟨hnames, -⟩ | ⟨total, used, share, hsections, -, -, -, -, hshareName, hshare⟩
    · have hmem : s.name ∈ layer.measureSections.map Section.name := List.mem_map_of_mem hs
      rw [hnames, List.mem_singleton] at hmem
      exact .inl hmem
    · rw [hsections] at hs ⊢
      have hformula : ∀ t ∈ [total, used],
          t.name.toList <:+: (used.name ++ " / " ++ total.name).toList := by
        simp only [List.forall_mem_cons, String.toList_append, List.append_assoc,
          List.not_mem_nil, false_imp_iff, implies_true, and_true]
        refine ⟨?_, (List.prefix_append _ _).isInfix⟩
        rw [← List.append_assoc]
        exact (List.suffix_append _ _).isInfix
      simp only [List.mem_cons, List.not_mem_nil, or_false] at hs
      rcases hs with rfl | rfl | rfl
      · exact .inr ⟨share, by simp, _, by rw [hshare]; exact List.mem_singleton_self _,
          hformula _ (by simp)⟩
      · exact .inr ⟨share, by simp, _, by rw [hshare]; exact List.mem_singleton_self _,
          hformula _ (by simp)⟩
      · exact .inl hshareName
  · simp [measureSections_eq_nil hshows] at hs

end LayerSnapshot

/-! ## Raster layers -/

namespace MeterContext

variable {c : MeterContext} {layer : LayerSnapshot} {source name : String}

theorem valuesOf_imageName_blockWith (layer : LayerSnapshot) (options : List (String × String)) :
    (layer.blockWith options).meter.toSection.valuesOf "ImageName" =
      (options.filter fun entry => entry.1 == "ImageName").map Prod.snd := by
  simp only [Section.valuesOf, Section.valuesWhere, MeterDeclaration.toSection,
    LayerSnapshot.blockWith, MeterDeclaration.references]
  unfold LayerSnapshot.references
  split <;> rfl

/-- The meter of a raster layer has one image, and its name is that of the planned place. -/
theorem exists_imageName_of_block {b : Block} (h : c.block layer = .ok (some b))
    (hsource : layer.payload.imageSource? = some source) :
    ∃ name, c.imageName source = .ok name ∧ b.meter.toSection.valuesOf "ImageName" = [name] := by
  unfold block at h
  cases hp : layer.payload with
  | image shown =>
    have hkind : layer.kind = .image := by simp [LayerSnapshot.kind, hp, Payload.kind]
    have heq : shown = source := by simpa [hp, Payload.imageSource?] using hsource
    simp only [hp, map_eq_ok_iff, Option.some.injEq, exists_eq_right] at h
    obtain ⟨name, hname, rfl⟩ := imageBlock_eq_ok hkind h
    exact ⟨name, heq ▸ hname, by rw [valuesOf_imageName_blockWith]; rfl⟩
  | rotator needle =>
    have heq : needle.source = source := by simpa [hp, Payload.imageSource?] using hsource
    cases hm : layer.catalogMeasure? with
    | none => simp [hp, hm] at h
    | some entry =>
      simp only [hp, hm, map_eq_ok_iff, Option.some.injEq, exists_eq_right] at h
      obtain ⟨name, hname, rfl⟩ := rotatorBlock_eq_ok hm h
      refine ⟨name, heq ▸ hname, ?_⟩
      rw [valuesOf_imageName_blockWith]
      cases hr : entry.recipe.valueRemainder <;> rfl
  | text _ | bar _ | shape _ => simp [hp, Payload.imageSource?] at hsource

/-- The place that an image name stands for. -/
theorem exists_index_of_imageName (h : c.imageName source = .ok name) :
    ∃ index path, c.assets.images[index]? = some path ∧ Path.SamePlace path source ∧
      name = imageReference index := by
  unfold imageName at h
  cases hindex : c.assets.imageIndex? source with
  | none => simp [hindex] at h
  | some index =>
    obtain ⟨path, hpath, hsame⟩ := AssetPlan.samePlace_of_imageIndex? hindex
    rw [hindex] at h
    exact ⟨index, path, hpath, hsame, (Except.ok.inj h).symm⟩

theorem isSingleLine_imageReference (index : Nat) :
    Text.isSingleLine (imageReference index) = true := by
  have hwords : ∀ word ∈ ["#@#", imagesDirectory, "/", ".png"],
      Text.isSingleLine word = true := by decide
  simp [imageReference, imageFileName, Text.isSingleLine_repr, hwords]

/-- All references of the sections of one layer lead somewhere. -/
theorem resolved_of_block {b : Block} (h : c.block layer = .ok (some b))
    (hname : Text.isSingleLine layer.name = true) :
    LayerSections.Resolved c.assets layer b.sections := by
  obtain ⟨options, hb, hkeys⟩ := block_eq_some h
  have hmeasures : b.sections.measures = layer.measureSections := by rw [hb]; rfl
  have hword : Text.isSingleLine "Measure" = true := by decide
  have hreferences : b.sections.meter.measureReferences = layer.references := by
    refine Section.valuesWhere_encoded_eq ?_ ?_
    · rw [hb]
      exact LayerSnapshot.measureReferences_blockWith hkeys
    · unfold LayerSnapshot.references
      split <;> simp [measureName, hword, hname]
  have hshown : layer.ShowsMeasure → layer.references = [measureName layer.name] := fun hshows =>
    if_pos (LayerSnapshot.showsMeasure_iff.1 hshows)
  refine ⟨by rw [hb]; rfl, fun hshows => ?_, fun hshows => ?_, ?_, ?_, fun source hsource => ?_⟩
  · refine ⟨measureName layer.name, ?_, by rw [hreferences, hshown hshows]⟩
    rw [hmeasures]
    rcases LayerSnapshot.measureSections_cases hshows hname with
      ⟨hnames, -⟩ | ⟨total, used, share, hsections, -, -, -, -, hshare, -⟩
    · simp [hnames]
    · simp [hsections, hshare]
  · rw [hreferences]
    exact if_neg (mt LayerSnapshot.showsMeasure_iff.2 hshows)
  · rw [hmeasures]
    exact fun _ _ _ hsplit _ => LayerSnapshot.formula_names_mem hname hsplit
  · rw [hmeasures, hreferences]
    exact fun _ => LayerSnapshot.measureSections_referenced hname
  · obtain ⟨name, himage, hvalues⟩ := exists_imageName_of_block h hsource
    obtain ⟨index, path, hpath, hsame, rfl⟩ := exists_index_of_imageName himage
    refine ⟨index, path, hpath, hsame, Section.valuesWhere_encoded_eq hvalues ?_⟩
    exact List.forall_mem_singleton.2 (isSingleLine_imageReference index)

end MeterContext

/-! ## Compiled skins -/

/-- The sections of layers that appear, in the order of the layers, are those of their blocks. -/
theorem forall₂_resolved {c : MeterContext} {layers : List LayerSnapshot} {blocks : List Block}
    (hblocks : List.Forall₂ (fun layer b => c.block layer = .ok (some b)) layers blocks)
    (hnames : ∀ layer ∈ layers, Text.isSingleLine layer.name = true) :
    List.Forall₂ (LayerSections.Resolved c.assets) layers (blocks.map Block.sections) := by
  induction hblocks with
  | nil => exact .nil
  | cons hb _ ih =>
    refine .cons (MeterContext.resolved_of_block hb (hnames _ List.mem_cons_self)) ?_
    exact ih fun layer hlayer => hnames layer (List.mem_cons_of_mem _ hlayer)

section Compiled

variable {snapshot : Snapshot} {metadata : Metadata} {options : SkinOptions} {fonts : FontCache}
  {skin : CompiledSkin}

/-- The sections of a compiled skin are three in front, then those of the measures, then the
meters, both in the order of the layers. All references of each layer lead somewhere: to sections
before it, and to images that are planned. Nothing is planned that no layer needs. -/
theorem compile_resolves (h : compile snapshot metadata options fonts = .ok skin) :
    ∃ (front : List Section) (parts : List LayerSections),
      Section.readAll skin.text =
        front ++ parts.flatMap LayerSections.measures ++ parts.map LayerSections.meter ∧
      front.map Section.name = ["Metadata", "Rainmeter", "Variables"] ∧
      List.Forall₂ (LayerSections.Resolved skin.assets) snapshot.shown parts ∧
      (∀ path ∈ skin.assets.images,
        ∃ layer ∈ snapshot.shown, layer.payload.imageSource? = some path) ∧
      ∀ fileName ∈ skin.assets.fonts,
        ∃ layer ∈ snapshot.shown, ∃ content, layer.payload = .text content ∧
          ∃ entry, fonts.find? content.fontName = some entry ∧ entry.fileName = fileName := by
  obtain ⟨doc, hdoc, htext, -, hsound⟩ := exists_document_of_compile h
  have hnames := isSingleLine_of_mem_shown (compile_eq_ok_iff.1 h).1
  have hassets : skin.assets = AssetPlan.ofLayers fonts snapshot.shown := by
    obtain ⟨-, _, -, rfl⟩ := compile_eq_ok_iff.1 h
    rfl
  have hread : Section.readAll skin.text = doc.sections.map Section.encoded := by
    rw [Section.readAll, htext, Document.readLines_render fun s hs => (hsound s hs).readable]
  obtain ⟨blocks, hblocks, rfl⟩ := documentOf_eq_ok (fun _ => Snapshot.isShown_of_mem_shown) hdoc
  rw [hassets]
  refine ⟨(headerSections snapshot.background metadata options).map Section.encoded,
    blocks.map Block.sections, ?_, rfl, forall₂_resolved hblocks hnames, ?_, ?_⟩
  · rw [hread]
    simp only [Document.sections, List.map_append, List.map_map, List.map_flatMap,
      List.flatMap_map]
    rfl
  · exact fun _ => AssetPlan.exists_of_mem_images
  · exact fun _ => AssetPlan.exists_of_mem_fonts

/-- A needle that shows the used share of a volume, named like a place for names. -/
def shareNeedle : LayerSnapshot where
  name := "\x7bmeasure\x7d"
  measure := some "rotator-disk-c-usage"
  payload := .rotator ⟨"art//needle.png", 0, 0, 0, 90⟩
  geometry := ⟨⟨0, 0⟩, ⟨100, 100⟩, .unit, 0⟩

/-- The image of the needle on its own, in another spelling. -/
def needlePicture : LayerSnapshot where
  name := "Picture"
  payload := .image "art/needle.png"
  geometry := ⟨⟨0, 0⟩, ⟨100, 100⟩, .unit, 0⟩

/-- Both layers refer to one image, and the needle to a section of its own measure. -/
theorem compile_resolves_shareNeedle :
    ∃ skin, compile ⟨{}, [shareNeedle, needlePicture]⟩ {} {} {} = .ok skin ∧
      skin.assets.images = ["art//needle.png"] ∧
      ∃ front parts, Section.readAll skin.text =
          front ++ parts.flatMap LayerSections.measures ++ parts.map LayerSections.meter ∧
        List.Forall₂ (LayerSections.Resolved skin.assets) [shareNeedle, needlePicture] parts := by
  have hok : (compile ⟨{}, [shareNeedle, needlePicture]⟩ {} {} {}).isOk = true := by
    decide +kernel
  obtain ⟨skin, hskin⟩ := exists_eq_ok_of_isOk hok
  obtain ⟨front, parts, hread, -, hresolved, -⟩ := compile_resolves hskin
  refine ⟨skin, hskin, ?_, front, parts, hread, hresolved⟩
  obtain ⟨-, _, -, rfl⟩ := compile_eq_ok_iff.1 hskin
  change (AssetPlan.ofLayers {} (Snapshot.shown ⟨{}, [shareNeedle, needlePicture]⟩)).images = _
  decide +kernel

end Compiled

end WidgetSkin
