import WidgetSkin.Proofs.Design.RoundTrip
import WidgetSkin.Proofs.Editor.Vetted

/-!
# Edited designs that are saved

All doubles of an edited design are finite, apart from the positions and opacities that came in
without being checked. With a position or an opacity that is not finite the design is saved in a
form that is refused. Otherwise it comes back, provided that its numerals are read as the nearest
doubles.

## Main definitions

* `Sheet.Vetted` — what holds of the doubles of a sheet.
* `Design.unchecked` — the positions and opacities of a design.

## Main statements

* `Sheet.Vetted.after` — one event.
* `Editor.vetted_run` — a history.
* `Editor.saved_run` — edited designs that come back.
* `Editor.read?_ne_of_accepted` — edited designs that do not.
-/

namespace WidgetSkin

open HasNumbers

section Sheets

variable {P : Float → Prop}

/-! ## Sheets -/

/-- The extent of the background is finite, and its position has a property. -/
structure Background.Vetted (P : Float → Prop) (b : Background) : Prop where
  width : b.width.isFinite = true
  height : b.height.isFinite = true
  position : ∀ x ∈ numbers b.position, P x

/-- What holds of the doubles of a sheet. -/
structure Sheet.Vetted (P : Float → Prop) (p : Sheet) : Prop where
  config : AllFinite p.config
  background : p.background.Vetted P
  records : ∀ r ∈ p.records, WidgetSkin.Vetted P r.payload r.geometry

namespace Sheet

variable {p q : Sheet} {event : Event}

theorem Turn.config_eq (hturn : p.Turn event q) : q.config = p.config := by
  cases hturn with
  | append tool hdeleted hbound => cases hnew : p.creation? event <;> rfl
  | _ => rfl

theorem background_append (p : Sheet) (new? : Option Creation) :
    (p.append new?).background = p.background := by
  cases new? <;> rfl

namespace Vetted

theorem new {config : EditorConfig} (hconfig : AllFinite config)
    (hP : ∀ x : Float, x.isFinite = true → P x) : (Sheet.new config).Vetted P := by
  obtain ⟨-, -, -, -, -, -, -, -, hbackground⟩ := EditorConfig.allFinite_iff.1 hconfig
  obtain ⟨hposition, hwidth, hheight⟩ := Background.allFinite_iff.1 hbackground
  exact ⟨hconfig, ⟨hwidth, hheight, fun x hx => hP x (hposition x hx)⟩, List.forall_mem_nil _⟩

/-- The records after an event. -/
theorem turn (h : p.Vetted P) (hturn : p.Turn event q) (hP : ∀ x : Float, x.isFinite = true → P x)
    (hpixels : event.InPixels) (hgiven : ∀ x ∈ event.unchecked, P x) :
    ∀ r ∈ q.records, WidgetSkin.Vetted P r.payload r.geometry := by
  intro r' hr'
  cases hturn.origin hr' with
  | born hborn hbound =>
    obtain ⟨new, hnew, rfl⟩ := Option.map_eq_some_iff.1 hborn
    cases event with
    | operation s op => exact op.vetted_creation? h.config hP hpixels hgiven hnew
    | drag handle point => cases hnew
  | kept hr hbound => exact h.records r' hr
  | @edited s change r hr hcheck =>
    cases hrevise : change.revise? s r with
    | none => exact h.records r hr
    | some r' => exact change.vetted_revise? hpixels hcheck hgiven (h.records r hr) hrevise
  | @dragged position r hr => exact { h.records r hr with position := hgiven }

/-- The background after an event. -/
theorem background_after (h : p.Vetted P) (hgiven : ∀ x ∈ event.unchecked, P x) :
    (p.after event).background.Vetted P := by
  cases event with
  | drag handle point => exact h.background
  | operation s op =>
    change (p.apply s op).background.Vetted P
    cases op with
    | setBackgroundPosition position => exact { h.background with position := hgiven }
    | setBackgroundSize width height =>
      rw [apply]
      split
      · exact h.background
      · next hsize =>
        have hfinite : width.isFinite = true ∧ height.isFinite = true := by
          simp only [Bool.or_eq_true, Bool.not_eq_true', not_or, Bool.not_eq_false,
            Bool.and_eq_true] at hsize
          exact hsize.1.1
        exact ⟨hfinite.1, hfinite.2, h.background.position⟩
    | createText _ _ | createBar _ | createShape _ _ | createImage _ | createRotator _
    | create _ _ | place _ =>
      rw [apply, background_append]
      exact h.background
    | reorder _ | edit _ _ =>
      rw [apply]
      split <;> exact h.background
    | move id direction => cases direction <;> exact h.background
    | _ => exact ⟨h.background.width, h.background.height, h.background.position⟩

/-- What holds of the doubles of a sheet, holds after an event. -/
theorem after (h : p.Vetted P) (hnodup : p.order.Nodup)
    (hP : ∀ x : Float, x.isFinite = true → P x) (hpixels : event.InPixels)
    (hgiven : ∀ x ∈ event.unchecked, P x) : (p.after event).Vetted P :=
  have hturn := turn_after hnodup event
  ⟨hturn.config_eq ▸ h.config, h.background_after hgiven, h.turn hturn hP hpixels hgiven⟩

end Vetted

end Sheet

/-- What holds of the doubles of a sheet at the end of a history. -/
theorem Editor.vetted_run {config : EditorConfig} {events : List Event}
    (hconfig : AllFinite config) (hP : ∀ x : Float, x.isFinite = true → P x)
    (hpixels : ∀ event ∈ events, event.InPixels)
    (hgiven : ∀ event ∈ events, ∀ x ∈ event.unchecked, P x) :
    ((Editor.new config).run events).sheet.Vetted P := by
  induction events using List.reverseRecOn with
  | nil => exact .new hconfig hP
  | append_singleton events event ih =>
    rw [List.forall_mem_append, List.forall_mem_singleton] at hpixels hgiven
    have he := inStep_run config events
    rw [run_concat, he.sheet_after]
    exact (ih hpixels.1 hgiven.1).after he.order_sheet_nodup hP hpixels.2 hgiven.2

end Sheets

/-! ## Designs -/

/-- The doubles of a layer that nothing checks. -/
def LayerSnapshot.unchecked (l : LayerSnapshot) : List Float :=
  l.payload.unchecked ++ numbers l.geometry.position

/-- The doubles of a design that nothing checks. -/
def Design.unchecked (d : Design) : List Float :=
  numbers d.background.position ++ d.layers.flatMap LayerSnapshot.unchecked

theorem Vetted.allFinite_iff {P : Float → Prop} {l : LayerSnapshot}
    (h : Vetted P l.payload l.geometry) : AllFinite l ↔ ∀ x ∈ l.unchecked, x.isFinite = true := by
  rw [LayerSnapshot.allFinite_iff, Payload.allFinite_iff, LayerSnapshot.unchecked,
    List.forall_mem_append]
  constructor
  · rintro ⟨⟨-, hopacities⟩, hposition, -⟩
    exact ⟨hopacities, hposition⟩
  · rintro ⟨hopacities, hposition⟩
    exact ⟨⟨h.checked, hopacities⟩, hposition, h.size, h.scale, h.angle⟩

namespace Sheet.Vetted

variable {P : Float → Prop} {p : Sheet}

theorem layers (h : p.Vetted P) :
    ∀ l ∈ p.snapshot.layers, WidgetSkin.Vetted P l.payload l.geometry := by
  intro l hl
  obtain ⟨r, hr, rfl⟩ := List.mem_map.1 hl
  exact h.records r hr

/-- A design whose unchecked doubles are finite is finite. -/
theorem allFinite_iff (h : p.Vetted P) (metadata : Metadata) {options : SkinOptions}
    (hsettings : AllFinite options.settings) :
    AllFinite (Design.ofSnapshot p.snapshot metadata options) ↔
      ∀ x ∈ (Design.ofSnapshot p.snapshot metadata options).unchecked, x.isFinite = true := by
  rw [Design.allFinite_iff, Design.unchecked, List.forall_mem_append, List.forall_mem_flatMap,
    Background.allFinite_iff]
  have hlayers : (∀ l ∈ p.snapshot.layers, AllFinite l) ↔
      ∀ l ∈ p.snapshot.layers, ∀ x ∈ l.unchecked, x.isFinite = true :=
    forall₂_congr fun l hl => (h.layers l hl).allFinite_iff
  constructor
  · rintro ⟨⟨hposition, -⟩, hall, -⟩
    exact ⟨hposition, hlayers.1 hall⟩
  · rintro ⟨hposition, hall⟩
    exact ⟨⟨hposition, h.background.width, h.background.height⟩, hlayers.2 hall, hsettings⟩

theorem unchecked (h : p.Vetted P) (metadata : Metadata) (options : SkinOptions) :
    ∀ x ∈ (Design.ofSnapshot p.snapshot metadata options).unchecked, P x := by
  rw [Design.unchecked, List.forall_mem_append, List.forall_mem_flatMap]
  refine ⟨h.background.position, fun l hl => ?_⟩
  rw [LayerSnapshot.unchecked, List.forall_mem_append]
  exact ⟨(h.layers l hl).unchecked, (h.layers l hl).position⟩

end Sheet.Vetted

namespace Editor

/-- Edited designs that are saved, if the configuration and the settings hold finite doubles and
images have sizes in pixels. Such a design comes back if and only if its positions and opacities
are finite and its numerals are read as the nearest doubles; with a position or an opacity that is
not finite it is refused. Such a double has come in with an event, which did not check it. -/
theorem saved_run {config : EditorConfig} {events : List Event} {options : SkinOptions}
    (metadata : Metadata) (hconfig : AllFinite config) (hsettings : AllFinite options.settings)
    (hpixels : ∀ event ∈ events, event.InPixels) :
    let d := Design.ofSnapshot ((Editor.new config).run events).snapshot metadata options
    (Design.read? d.pretty = some d ↔
      (∀ x ∈ d.unchecked, x.isFinite = true) ∧ ∀ x ∈ numbers d, ReadNearest x) ∧
    ((∃ x ∈ d.unchecked, x.isFinite = false) → Design.read? d.pretty = none) ∧
    ∀ x ∈ d.unchecked, x.isFinite = true ∨ ∃ event ∈ events, x ∈ event.unchecked := by
  intro d
  have hvetted : ((Editor.new config).run events).sheet.Vetted fun x =>
      x.isFinite = true ∨ ∃ event ∈ events, x ∈ event.unchecked :=
    vetted_run hconfig (fun _ => .inl) hpixels fun event hevent x hx => .inr ⟨event, hevent, hx⟩
  have hd : Design.ofSnapshot ((Editor.new config).run events).sheet.snapshot metadata options =
      d := by
    rw [← (inStep_run config events).snapshot_eq]
  have hfinite : AllFinite d ↔ ∀ x ∈ d.unchecked, x.isFinite = true :=
    hd ▸ hvetted.allFinite_iff metadata hsettings
  refine ⟨?_, ?_, hd ▸ hvetted.unchecked metadata options⟩
  · rw [← hfinite]
    exact d.read?_pretty_eq_self_iff
  · rintro ⟨x, hx, hnot⟩
    refine Design.read?_pretty_eq_none fun hall => ?_
    rw [hfinite.1 hall x hx] at hnot
    cases hnot

/-- An image that is scaled and dragged comes back. -/
theorem saved_run_of_image :
    let s : Surroundings := ⟨fun _ => .ok (some "dial.png"), fun _ => some ⟨64, 64⟩⟩
    let events : List Event :=
      [.operation s (.createImage ⟨120, 80⟩), .operation s (.edit ⟨1⟩ (.size ⟨32, 48⟩)),
        .drag ⟨1⟩ ⟨200, 90.5⟩]
    let d := Design.ofSnapshot ((Editor.new {}).run events).snapshot {} {}
    Design.read? d.pretty = some d ∧ d.layers.length = 1 := by
  intro s events d
  have hpixels : ∀ event ∈ events, event.InPixels := by
    have hcount : IsPixelCount 64 := ⟨64, rfl, by decide, by decide⟩
    have hs : s.InPixels := by
      rintro path size ⟨⟩
      exact ⟨hcount, hcount⟩
    simp [events, Event.InPixels, hs]
  obtain ⟨hback, -, -⟩ := @saved_run {} events {} {} (by decide) (by decide) hpixels
  exact ⟨hback.2 (by decide +kernel), by decide +kernel⟩

/-- Two designs that do not come back, though all operations were accepted: a bar is moved to a
place that is no number, which the saved form does not tell; or to the difference of 1.1 and 1,
whose numeral is not read as the nearest double. -/
theorem read?_ne_of_accepted :
    let bar := (Editor.new {}).step .silent (.createBar ⟨0, 0⟩)
    let moved (x : Float) := bar.editor.step .silent (.edit ⟨1⟩ (.position ⟨x, 0⟩))
    let saved (x : Float) := Design.ofSnapshot (moved x).editor.snapshot {} {}
    bar.result.isOk = true ∧
      ((moved (0 / 0)).result.isOk = true ∧ Design.read? (saved (0 / 0)).pretty = none) ∧
      (moved (1.1 - 1)).result.isOk = true ∧ AllFinite (saved (1.1 - 1)) ∧
        Design.read? (saved (1.1 - 1)).pretty ≠ some (saved (1.1 - 1)) := by
  refine ⟨by decide +kernel, ⟨by decide +kernel, ?_⟩, by decide +kernel, by decide +kernel, ?_⟩
  · exact Design.read?_pretty_eq_none (by decide +kernel)
  · rw [Ne, Design.read?_pretty_eq_self_iff]
    decide +kernel

end Editor

end WidgetSkin
