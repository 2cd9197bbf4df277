import Mathlib.Data.List.Nodup
import Mathlib.Data.List.Pairwise
import WidgetSkin.Proofs.Skin.Frame

/-!
# Names of sections

The rules of a compilation keep the names of layers apart. Whether the names of all sections of
a skin differ is up to the layers: a layer may be named like a section in front, like a
declaration of a measure, or like another layer with the suffix of a declaration behind it.

## Main definitions

* `LayerSnapshot.suffixes` — how the declarations of a layer's measure are told apart.
* `LayerSnapshot.Shadows` — a layer is named like another with a suffix.

## Main statements

* `compile_names_nodup_iff` — when the names of all sections of a compiled skin differ.
-/

namespace WidgetSkin

/-- The names of the sections in front. -/
def headerNames : List String :=
  ["Metadata", "Rainmeter", "Variables"]

namespace LayerSnapshot

/-- The suffixes of the declarations of the measure that a layer shows. -/
def suffixes (layer : LayerSnapshot) : List String :=
  match layer.catalogMeasure? with
  | some entry => entry.recipe.declarations.map Declaration.suffix
  | none => []

/-- The names of the declarations of the measure that a layer shows. -/
def measureNames (layer : LayerSnapshot) : List String :=
  layer.suffixes.map (measureName layer.name ++ ·)

theorem measureFrames_names (layer : LayerSnapshot) :
    layer.measureFrames.map Frame.name = layer.measureNames := by
  unfold measureFrames measureNames suffixes
  cases layer.catalogMeasure? with
  | none => rfl
  | some entry => simp [Declaration.nameFor, Function.comp_def]

/-- A measure has one declaration, or those of the used share of a volume. -/
theorem suffixes_eq (layer : LayerSnapshot) :
    layer.suffixes = [] ∨ layer.suffixes = [""] ∨ layer.suffixes = ["Total", "Used", ""] := by
  have hentries : ∀ entry ∈ Catalog.entries,
      entry.recipe.declarations.map Declaration.suffix = [""] ∨
      entry.recipe.declarations.map Declaration.suffix = ["Total", "Used", ""] := by
    decide +kernel
  unfold suffixes
  cases hentry : layer.catalogMeasure? with
  | none => exact .inl rfl
  | some entry => exact .inr (hentries entry (catalogMeasure?_eq_some hentry).1)

theorem suffixes_nodup (layer : LayerSnapshot) : layer.suffixes.Nodup := by
  rcases layer.suffixes_eq with h | h | h <;> rw [h] <;> decide

theorem mem_of_mem_suffixes {layer : LayerSnapshot} {suffix : String}
    (h : suffix ∈ layer.suffixes) : suffix ∈ ["Total", "Used", ""] := by
  rcases layer.suffixes_eq with hs | hs | hs <;> simp_all

/-- A layer that shows a measure has a declaration without a suffix. -/
theorem empty_mem_suffixes {layer : LayerSnapshot} {suffix : String}
    (h : suffix ∈ layer.suffixes) : "" ∈ layer.suffixes := by
  rcases layer.suffixes_eq with hs | hs | hs <;> simp_all

theorem measureNames_nodup (layer : LayerSnapshot) : layer.measureNames.Nodup :=
  layer.suffixes_nodup.map fun _ _ h => (String.append_right_inj _).1 h

/-- Whether the layer `l` shows a measure and is named like `m` with the suffix of one of the
declarations of `m`. -/
def Shadows (l m : LayerSnapshot) : Prop :=
  "" ∈ l.suffixes ∧ ∃ suffix ∈ m.suffixes, suffix ≠ "" ∧ l.name = m.name ++ suffix

instance (l m : LayerSnapshot) : Decidable (l.Shadows m) :=
  inferInstanceAs (Decidable (_ ∧ _))

theorem not_shadows_self (layer : LayerSnapshot) : ¬ layer.Shadows layer := by
  rintro ⟨-, suffix, -, hsuffix, hname⟩
  exact hsuffix (String.append_eq_left_iff.1 hname.symm)

/-- Suffixes end in different letters, so that they are told apart behind any names. -/
theorem append_suffix_eq {a b s t : String} (hs : s ∈ ["Total", "Used", ""])
    (ht : t ∈ ["Total", "Used", ""]) (h : a ++ s = b ++ t) :
    a = b ∨ s = "" ∧ a = b ++ t ∨ t = "" ∧ b = a ++ s := by
  by_cases hst : s = t
  · subst hst
    exact .inl ((String.append_left_inj _).1 h)
  by_cases hs0 : s = ""
  · exact .inr (.inl ⟨hs0, by simpa [hs0] using h⟩)
  by_cases ht0 : t = ""
  · exact .inr (.inr ⟨ht0, by simpa [ht0] using h.symm⟩)
  have hlast : (a ++ s).toList.getLast? = (b ++ t).toList.getLast? := by rw [h]
  have hsome : ∀ u ∈ ["Total", "Used", ""], u ≠ "" → u.toList.getLast? ≠ none := by decide
  have hinj : ∀ u ∈ ["Total", "Used", ""], ∀ v ∈ ["Total", "Used", ""],
      u.toList.getLast? = v.toList.getLast? → u = v := by decide
  rw [String.toList_append, String.toList_append, List.getLast?_append, List.getLast?_append,
    Option.or_of_isSome (Option.isSome_iff_ne_none.2 (hsome s hs hs0)),
    Option.or_of_isSome (Option.isSome_iff_ne_none.2 (hsome t ht ht0))] at hlast
  exact absurd (hinj s hs t ht hlast) hst

/-- The declarations of two layers have a name in common only if one layer shadows the other. -/
theorem disjoint_measureNames_iff {l m : LayerSnapshot} (hne : l.name ≠ m.name) :
    l.measureNames.Disjoint m.measureNames ↔ ¬ l.Shadows m ∧ ¬ m.Shadows l := by
  rw [List.disjoint_left]
  constructor
  · intro hdisjoint
    refine ⟨?_, ?_⟩
    · rintro ⟨hl, suffix, hm, -, hname⟩
      refine hdisjoint (List.mem_map_of_mem hl) (List.mem_map.2 ⟨suffix, hm, ?_⟩)
      simp [measureName, hname, String.append_assoc]
    · rintro ⟨hm, suffix, hl, -, hname⟩
      refine hdisjoint (List.mem_map_of_mem hl) (List.mem_map.2 ⟨"", hm, ?_⟩)
      simp [measureName, hname, String.append_assoc]
  · rintro ⟨hlm, hml⟩ name hl hm
    obtain ⟨s, hs, rfl⟩ := List.mem_map.1 hl
    obtain ⟨t, ht, heq⟩ := List.mem_map.1 hm
    simp only [measureName, String.append_assoc, String.append_right_inj] at heq
    rcases append_suffix_eq (mem_of_mem_suffixes hs) (mem_of_mem_suffixes ht) heq.symm with
      h | ⟨hs0, h⟩ | ⟨ht0, h⟩
    · exact hne h
    · have ht0 : t ≠ "" := fun ht0 => hne (by simpa [ht0] using h)
      exact hlm ⟨empty_mem_suffixes hs, t, ht, ht0, h⟩
    · have hs0 : s ≠ "" := fun hs0 => hne (by simpa [hs0] using h.symm)
      exact hml ⟨empty_mem_suffixes ht, s, hs, hs0, h⟩

end LayerSnapshot

/-! ## All sections of a skin -/

section Shown

variable {shown : List LayerSnapshot}

theorem skinFrames_names (options : SkinOptions) :
    (skinFrames options shown).map Frame.name =
      headerNames ++ shown.flatMap LayerSnapshot.measureNames ++
        shown.map LayerSnapshot.name := by
  simp only [skinFrames, List.map_append, List.map_flatMap, LayerSnapshot.measureFrames_names,
    List.map_map]
  rfl

/-- The names of all declarations of measures differ if no layer shadows another. -/
theorem flatMap_measureNames_nodup_iff (hnames : (shown.map LayerSnapshot.name).Nodup) :
    (shown.flatMap LayerSnapshot.measureNames).Nodup ↔
      ∀ l ∈ shown, ∀ m ∈ shown, ¬ l.Shadows m := by
  rw [List.nodup_flatMap, and_iff_right fun l _ => l.measureNames_nodup]
  have hinj := List.inj_on_of_nodup_map hnames
  constructor
  · intro hpairwise l hl m hm hshadows
    have hne : l ≠ m := by
      rintro rfl
      exact l.not_shadows_self hshadows
    -- Being disjoint is symmetric, so a pair of layers may stand in either order.
    have : Std.Symm (Function.onFun List.Disjoint LayerSnapshot.measureNames) :=
      ⟨fun _ _ => List.disjoint_symm⟩
    have hdisjoint := hpairwise.forall hl hm hne
    exact ((LayerSnapshot.disjoint_measureNames_iff (mt (hinj hl hm) hne)).1 hdisjoint).1 hshadows
  · intro hshadows
    refine hnames.of_map.pairwise_of_forall_ne fun l hl m hm hne => ?_
    refine (LayerSnapshot.disjoint_measureNames_iff (mt (hinj hl hm) hne)).2 ?_
    exact ⟨hshadows l hl m hm, hshadows m hm l hl⟩

/-- No declaration of a measure is named like a section in front. -/
theorem headerNames_disjoint :
    headerNames.Disjoint (shown.flatMap LayerSnapshot.measureNames) := by
  have hletters : ∀ name ∈ headerNames, name.toList.take 7 ≠ "Measure".toList := by decide
  intro name hheader hmeasure
  obtain ⟨layer, -, hname⟩ := List.mem_flatMap.1 hmeasure
  obtain ⟨suffix, -, rfl⟩ := List.mem_map.1 hname
  refine hletters _ hheader ?_
  simp [measureName]

/-- The names of all sections differ if no layer is named like a section in front, like a
declaration of a measure, or like another layer with a suffix behind it. -/
theorem skinFrames_names_nodup_iff {options : SkinOptions}
    (hnames : (shown.map LayerSnapshot.name).Nodup) :
    ((skinFrames options shown).map Frame.name).Nodup ↔
      (∀ l ∈ shown, l.name ∉ headerNames) ∧
      (∀ l ∈ shown, ∀ m ∈ shown, l.name ∉ m.measureNames) ∧
      ∀ l ∈ shown, ∀ m ∈ shown, ¬ l.Shadows m := by
  have hheader : headerNames.Nodup := by decide
  have hfixed : headerNames.Disjoint (shown.map LayerSnapshot.name) ↔
      ∀ l ∈ shown, l.name ∉ headerNames := by
    rw [List.disjoint_right, List.forall_mem_map]
  have hmeasures : (shown.flatMap LayerSnapshot.measureNames).Disjoint
        (shown.map LayerSnapshot.name) ↔
      ∀ l ∈ shown, ∀ m ∈ shown, l.name ∉ m.measureNames := by
    simp only [List.disjoint_right, List.forall_mem_map, List.mem_flatMap, not_exists, not_and]
  rw [skinFrames_names, List.nodup_append', List.nodup_append', List.disjoint_append_left,
    flatMap_measureNames_nodup_iff hnames, hfixed, hmeasures]
  constructor
  · rintro ⟨⟨-, hshadows, -⟩, -, hfixed, hmeasures⟩
    exact ⟨hfixed, hmeasures, hshadows⟩
  · rintro ⟨hfixed, hmeasures, hshadows⟩
    exact ⟨⟨hheader, hshadows, headerNames_disjoint⟩, hnames, hfixed, hmeasures⟩

end Shown

section Compiled

variable {snapshot : Snapshot} {metadata : Metadata} {options : SkinOptions} {fonts : FontCache}
  {skin : CompiledSkin}

/-- The names of all sections of a compiled skin. -/
theorem compile_names (h : compile snapshot metadata options fonts = .ok skin) :
    (Section.readAll skin.text).map Section.name =
      (skinFrames options snapshot.shown).map Frame.name := by
  rw [← compile_frames h, List.map_map]
  rfl

/-- The names of all sections of a compiled skin differ if no layer that appears is named like a
section in front, like a declaration of a measure, or like another layer with a suffix. The
rules of a compilation do not ask for any of this. -/
theorem compile_names_nodup_iff (h : compile snapshot metadata options fonts = .ok skin) :
    ((Section.readAll skin.text).map Section.name).Nodup ↔
      (∀ l ∈ snapshot.shown, l.name ∉ headerNames) ∧
      (∀ l ∈ snapshot.shown, ∀ m ∈ snapshot.shown, l.name ∉ m.measureNames) ∧
      ∀ l ∈ snapshot.shown, ∀ m ∈ snapshot.shown, ¬ l.Shadows m := by
  have hlayers := (validate_eq_ok_iff.1 (compile_eq_ok_iff.1 h).1).2.2.2.2
  have hnames : (snapshot.shown.map LayerSnapshot.name).Nodup :=
    hlayers.sublist (List.filter_sublist.map _)
  rw [compile_names h, skinFrames_names_nodup_iff hnames]

end Compiled

/-- A bar that shows the load of the processor. -/
def loadBar (name : String) : LayerSnapshot where
  name := name
  measure := some "bar-cpu"
  payload := .bar ⟨⟨"#000000", 1⟩, ⟨"#FFA500", 1⟩⟩
  geometry := ⟨⟨0, 0⟩, ⟨200, 50⟩, .unit, 0⟩

/-- A shape with a name. -/
def plainShape (name : String) : LayerSnapshot where
  name := name
  payload := .shape ⟨.ellipse, ⟨"#008000", 1⟩⟩
  geometry := ⟨⟨0, 0⟩, ⟨100, 100⟩, .unit, 0⟩

/-- The names that the editor gives keep all sections apart. -/
theorem compile_names_nodup_of_given_names :
    ∃ skin, compile ⟨{}, [loadBar "Bar1", plainShape "Shape1"]⟩ {} {} {} = .ok skin ∧
      ((Section.readAll skin.text).map Section.name).Nodup := by
  have hok : (compile ⟨{}, [loadBar "Bar1", plainShape "Shape1"]⟩ {} {} {}).isOk = true := by
    decide +kernel
  obtain ⟨skin, hskin⟩ := exists_eq_ok_of_isOk hok
  exact ⟨skin, hskin, (compile_names_nodup_iff hskin).2 (by decide +kernel)⟩

/-- A shape that is named like the measure of a bar is accepted, and two sections have its
name. -/
theorem exists_compile_names_not_nodup :
    ∃ skin, compile ⟨{}, [loadBar "A", plainShape "MeasureA"]⟩ {} {} {} = .ok skin ∧
      ¬ ((Section.readAll skin.text).map Section.name).Nodup := by
  have hok : (compile ⟨{}, [loadBar "A", plainShape "MeasureA"]⟩ {} {} {}).isOk = true := by
    decide +kernel
  obtain ⟨skin, hskin⟩ := exists_eq_ok_of_isOk hok
  refine ⟨skin, hskin, ?_⟩
  rw [compile_names hskin]
  decide +kernel

end WidgetSkin
