import WidgetSkin.Proofs.Editor.Measures
import WidgetSkin.Proofs.Skin.Acceptance

/-!
# Compilations of edited designs

A design that was made in an editor has names that a skin file can take: each of them can stand
in brackets, no two of them are the same, and none is taken for another section. So only the data
that the user types freely can be refused, and the layers that are left out are the bars to which
no measure was bound.

## Main definitions

* `Editor.Compilable` — what a compilation asks of an edited design.

## Main statements

* `Editor.validate_run_iff` — the rules that an edited design can break.
* `Record.isShown_snapshot_iff` — which layers do not appear.
* `Editor.section_names_nodup` — the names of all sections differ.
* `Editor.compile_run` — compilations of edited designs.
-/

namespace WidgetSkin

/-- A layer with a measure of its kind appears, unless it is a bar without a measure. -/
theorem Record.isShown_snapshot_iff {r : Record} (h : r.kind.Suits r.measure) :
    r.snapshot.isShown = false ↔ r.kind = .bar ∧ r.measure = none := by
  have hoffers : ∀ {m : String}, r.measure = some m → Catalog.Offers r.kind m →
      r.snapshot.catalogMeasure?.isSome = true := by
    rintro m hm ⟨entry, hentry, hkind⟩
    change (Catalog.resolve? r.kind r.measure).isSome = true
    simp [Catalog.resolve?, hm, hentry, hkind, Option.filter]
  have hsame : r.snapshot.kind = r.kind := rfl
  rw [LayerSnapshot.isShown, hsame]
  cases hkind : r.kind with
  | text | image | shape => simp
  | rotator =>
    rw [hkind] at h hoffers
    obtain ⟨m, hm, hm'⟩ := h
    simp [hoffers hm hm']
  | bar =>
    rw [hkind] at h hoffers
    rcases h with hnone | ⟨m, hm, hm'⟩
    · simp [LayerSnapshot.catalogMeasure?, snapshot, hnone, Catalog.resolve?]
    · simp [hoffers hm hm', hm]

namespace Editor

variable {config : EditorConfig} {events : List Event} {metadata : Metadata}
  {options : SkinOptions} {fonts : FontCache}

/-! ## Names of layers -/

/-- Every layer has the name of its kind and a number. -/
theorem exists_name_eq {l : Layer} (hl : l ∈ ((Editor.new config).run events).layers) :
    ∃ n, l.name = l.kind.nthName n := by
  obtain ⟨b, hb, hidentity⟩ := exists_birth config events hl
  obtain ⟨earlier, later, hborn⟩ := List.append_of_mem hb
  have hname := ((census_run config events).numbered earlier b later hborn).2
  have hkind : b.kind = l.kind := congrArg Identity.kind hidentity
  rw [← hkind, ← show b.name = l.name from congrArg Identity.name hidentity]
  exact ⟨_, hname⟩

/-- No two layers have the same name. -/
theorem names_nodup_run (config : EditorConfig) (events : List Event) :
    (((Editor.new config).run events).layers.map Layer.name).Nodup := by
  have he := inStep_run config events
  refine List.Nodup.map_on (fun l hl m hm hname => ?_) he.ids_nodup.of_map
  obtain ⟨b, hb, hl'⟩ := exists_birth config events hl
  obtain ⟨c, hc, hm'⟩ := exists_birth config events hm
  have hbc : b = c := List.inj_on_of_nodup_map (census_run config events).numbered.names_nodup hb hc
    ((congrArg Identity.name hl').trans (hname.trans (congrArg Identity.name hm').symm))
  have hid : l.id = m.id :=
    congrArg Identity.id (hl'.symm.trans ((congrArg Layer.identity hbc).trans hm'))
  exact he.eq_of_id_eq hl hm hid

/-! ## Rules -/

/-- What a compilation asks of an edited design: a size of the background, metadata and fonts on
one line, and one plain name for the skin. -/
structure Compilable (e : Editor) (metadata : Metadata) (settings : Settings) : Prop where
  width_isFinite : e.background.width.isFinite = true
  height_isFinite : e.background.height.isFinite = true
  zero_le_width : 0 ≤ e.background.width
  zero_le_height : 0 ≤ e.background.height
  metadata_onOneLine : OnOneLine metadata.name ∧ OnOneLine metadata.author ∧
    OnOneLine metadata.version ∧ OnOneLine metadata.description
  skinName_components : ∃ name,
    Path.components (metadata.directoryName settings) = [.name name]
  fontName_onOneLine : ∀ l ∈ e.layers, ∀ content,
    l.payload = .text content → OnOneLine content.fontName

/-- The layers that are saved of an editor in step with its canvas. -/
theorem InStep.layers_snapshot {e : Editor} (he : e.InStep) :
    e.snapshot.layers = e.layers.map fun l => (e.recordOf l).snapshot := by
  rw [he.snapshot_eq]
  exact List.map_map

theorem names_snapshot_run (config : EditorConfig) (events : List Event) :
    ((Editor.new config).run events).snapshot.layers.map LayerSnapshot.name =
      ((Editor.new config).run events).layers.map Layer.name := by
  rw [(inStep_run config events).layers_snapshot, List.map_map]
  rfl

theorem exists_name_eq_of_mem_snapshot {layer : LayerSnapshot}
    (h : layer ∈ ((Editor.new config).run events).snapshot.layers) :
    ∃ kind n, layer.name = LayerKind.nthName kind n := by
  rw [(inStep_run config events).layers_snapshot] at h
  obtain ⟨l, hl, rfl⟩ := List.mem_map.1 h
  obtain ⟨n, hn⟩ := exists_name_eq hl
  exact ⟨l.kind, n, hn⟩

/-- The names of layers keep all rules. -/
theorem acceptable_run_iff {settings : Settings} :
    Acceptable ((Editor.new config).run events).snapshot metadata settings ↔
      ((Editor.new config).run events).Compilable metadata settings := by
  have hlayers := (inStep_run config events).layers_snapshot
  constructor
  · intro h
    refine ⟨h.width_isFinite, h.height_isFinite, h.zero_le_width, h.zero_le_height,
      h.metadata_onOneLine, h.skinName_components, fun l hl content hpayload => ?_⟩
    have hmem : (((Editor.new config).run events).recordOf l).snapshot ∈
        ((Editor.new config).run events).snapshot.layers := by
      rw [hlayers]
      exact List.mem_map_of_mem hl
    exact h.fontName_onOneLine _ hmem content hpayload
  · intro h
    refine ⟨h.width_isFinite, h.height_isFinite, h.zero_le_width, h.zero_le_height,
      h.metadata_onOneLine, h.skinName_components, fun layer hlayer => ?_,
      fun layer hlayer content hpayload => ?_, ?_⟩
    · obtain ⟨kind, n, hname⟩ := exists_name_eq_of_mem_snapshot hlayer
      rw [hname]
      exact isSectionName_iff.1 (kind.isSectionName_nthName n)
    · rw [hlayers] at hlayer
      obtain ⟨l, hl, rfl⟩ := List.mem_map.1 hlayer
      exact h.fontName_onOneLine l hl content hpayload
    · rw [names_snapshot_run]
      exact names_nodup_run config events

/-- An edited design is never refused for the name of a layer. -/
theorem compile_run_ne_layerName (name : String) :
    compile ((Editor.new config).run events).snapshot metadata options fonts ≠
        .error (.invalid (.layerName name)) ∧
      compile ((Editor.new config).run events).snapshot metadata options fonts ≠
        .error (.invalid (.duplicateLayer name)) := by
  constructor
  · intro h
    obtain ⟨cause, hcause, hviolation⟩ := exists_violation_of_compile h
    cases hcause
    cases hviolation with
    | layerName hmem hbroken =>
      obtain ⟨kind, n, hname⟩ := exists_name_eq_of_mem_snapshot hmem
      obtain ⟨hne, hplain⟩ := isSectionName_iff.1 (kind.isSectionName_nthName n)
      rw [hname] at hbroken
      rcases hbroken with hempty | ⟨c, hc, hmem⟩
      · exact hne hempty
      · exact hplain c hc hmem
  · intro h
    obtain ⟨cause, hcause, hviolation⟩ := exists_violation_of_compile h
    cases hcause
    cases hviolation with
    | duplicate hlayers hbefore =>
      have hnames := names_nodup_run config events
      rw [← names_snapshot_run, hlayers, List.map_append, List.map_cons] at hnames
      exact (List.nodup_middle.1 hnames).notMem (List.mem_append_left _ hbefore)

/-- The names of all sections differ. -/
theorem section_names_nodup {skin : CompiledSkin}
    (h : compile ((Editor.new config).run events).snapshot metadata options fonts = .ok skin) :
    ((Section.readAll skin.text).map Section.name).Nodup := by
  have hnth : ∀ layer ∈ ((Editor.new config).run events).snapshot.shown,
      ∃ kind n, layer.name = LayerKind.nthName kind n := fun layer hlayer =>
    exists_name_eq_of_mem_snapshot (List.mem_filter.1 hlayer).1
  have hnames := names_nodup_run config events
  rw [← names_snapshot_run] at hnames
  have hshown : (((Editor.new config).run events).snapshot.shown.map LayerSnapshot.name).Nodup :=
    hnames.sublist (List.filter_sublist.map _)
  rw [compile_names h, skinFrames_names_nodup_iff hshown]
  refine ⟨fun l hl => ?_, fun l hl m hm hmem => ?_, fun l hl m hm => ?_⟩
  · obtain ⟨kind, n, hname⟩ := hnth l hl
    exact hname ▸ kind.nthName_not_mem_headerNames n
  · obtain ⟨kind, n, hname⟩ := hnth l hl
    obtain ⟨suffix, -, hsuffix⟩ := List.mem_map.1 hmem
    exact kind.nthName_ne_measureName n m.name suffix (hname.symm.trans hsuffix.symm)
  · rintro ⟨-, suffix, hsuffix, hne, heq⟩
    obtain ⟨kind, n, hname⟩ := hnth l hl
    have hmem : suffix ∈ ["Total", "Used"] := by
      have := LayerSnapshot.mem_of_mem_suffixes hsuffix
      simpa [hne] using this
    exact kind.nthName_ne_append n m.name hmem (hname.symm.trans heq)

/-- The layers that are left out are the bars to which no measure was bound. -/
theorem skippedLayers_run {skin : CompiledSkin}
    (h : compile ((Editor.new config).run events).snapshot metadata options fonts = .ok skin) :
    skin.skippedLayers =
      (((Editor.new config).run events).layers.filter fun l =>
        l.kind = .bar ∧ l.id ∉ notes measured? (Editor.new config) events).map Layer.name := by
  obtain ⟨-, doc, -, rfl⟩ := compile_eq_ok_iff.1 h
  rw [(inStep_run config events).layers_snapshot, List.filter_map, List.map_map]
  refine congrArg (List.map Layer.name) (List.filter_congr fun l hl => ?_)
  have hshown := Record.isShown_snapshot_iff (r := ((Editor.new config).run events).recordOf l)
    (suits_run config events l hl)
  rw [Function.comp_apply, Bool.eq_iff_iff, Bool.not_eq_true', decide_eq_true_eq]
  exact hshown.trans (and_congr_right fun hbar => measure_eq_none_iff hl hbar)

/-- Compilations of edited designs, whatever metadata, options and fonts are. Every layer has a
measure of its kind. A compilation is never refused for the name of a layer: it succeeds if and
only if background, metadata, name of the skin and fonts keep the rules. Then the layers that are
left out are the bars to which no measure was bound, in the order of the layers, and the names of
all sections differ. -/
theorem compile_run (config : EditorConfig) (events : List Event) (metadata : Metadata)
    (options : SkinOptions) (fonts : FontCache) :
    let e := (Editor.new config).run events
    (∀ l ∈ e.layers, l.kind.Suits l.measure) ∧
    ((∃ skin, compile e.snapshot metadata options fonts = .ok skin) ↔
      e.Compilable metadata options.settings) ∧
    (∀ name, compile e.snapshot metadata options fonts ≠ .error (.invalid (.layerName name)) ∧
      compile e.snapshot metadata options fonts ≠ .error (.invalid (.duplicateLayer name))) ∧
    ∀ skin, compile e.snapshot metadata options fonts = .ok skin →
      skin.skippedLayers = (e.layers.filter fun l =>
        l.kind = .bar ∧ l.id ∉ notes measured? (Editor.new config) events).map Layer.name ∧
      ((Section.readAll skin.text).map Section.name).Nodup := by
  intro e
  have haccepts : (∃ skin, compile e.snapshot metadata options fonts = .ok skin) ↔
      e.Compilable metadata options.settings := by
    rw [← acceptable_run_iff, acceptable_iff]
    refine ⟨?_, exists_compile_of_validate⟩
    rintro ⟨skin, hskin⟩
    exact (compile_eq_ok_iff.1 hskin).1
  exact ⟨suits_run config events, haccepts, compile_run_ne_layerName,
    fun skin hskin => ⟨skippedLayers_run hskin, section_names_nodup hskin⟩⟩

/-- Of two bars, one of which shows the load of the processor, the other is left out. -/
theorem compile_run_of_two_bars :
    let events : List Event :=
      [.operation .silent (.createBar ⟨10, 20⟩), .operation .silent (.createBar ⟨10, 90⟩),
        .operation .silent (.edit ⟨2⟩ (.measure "bar-cpu"))]
    ∃ skin, compile ((Editor.new {}).run events).snapshot {} {} {} = .ok skin ∧
      skin.skippedLayers = ["Bar1"] ∧ ((Section.readAll skin.text).map Section.name).Nodup := by
  intro events
  obtain ⟨-, haccepts, -, hskin⟩ := compile_run {} events {} {} {}
  have hcompilable : ((Editor.new {}).run events).Compilable {} ({} : SkinOptions).settings :=
    acceptable_run_iff.1 (acceptable_iff.2 (by decide +kernel))
  obtain ⟨skin, hcompile⟩ := haccepts.2 hcompilable
  obtain ⟨hskipped, hnames⟩ := hskin skin hcompile
  exact ⟨skin, hcompile, hskipped.trans (by decide +kernel), hnames⟩

end Editor

end WidgetSkin
