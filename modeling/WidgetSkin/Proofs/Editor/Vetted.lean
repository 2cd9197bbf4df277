import WidgetSkin.Proofs.Design.Finite
import WidgetSkin.Proofs.Editor.Identity
import WidgetSkin.Proofs.Image.Pixels

/-!
# Doubles of edited designs

Sizes, factors, angles, font sizes and calibrations are checked when they are given to an editor,
and those that it computes itself are finite as well: the factors that take an image to a box are
quotients by whole numbers. Positions and opacities are taken as they come. So whatever holds of
finite doubles, and of the positions and opacities that come in with a history, holds of all
positions and opacities at its end, and all other doubles are finite.

## Main definitions

* `Payload.checked`, `Payload.unchecked` — the two sorts of doubles of a content.
* `Event.unchecked` — the positions and opacities that come in with an event.
* `Event.InPixels` — the images that an event measures have sizes in pixels.
* `Vetted` — what holds of the doubles of a layer.

## Main statements

* `LayerEdit.vetted_revise?`, `EditorOp.vetted_creation?` — edited and new layers.
-/

namespace WidgetSkin

open HasNumbers

instance : HasNumbers EditorConfig := .ofEquiv
  ⟨fun c => (c.textContent, c.fontName, c.fontSize, c.textFill, c.textBox, c.barBox,
      c.barBackground, c.barForeground, c.needleImage, c.rotatorPreviewAngle, c.shapeBox,
      c.background),
    fun (textContent, fontName, fontSize, textFill, textBox, barBox, barBackground, barForeground,
      needleImage, rotatorPreviewAngle, shapeBox, background) =>
      ⟨textContent, fontName, fontSize, textFill, textBox, barBox, barBackground, barForeground,
        needleImage, rotatorPreviewAngle, shapeBox, background⟩,
    fun _ => rfl, fun _ => rfl⟩

/-! ## Two sorts of doubles -/

namespace Payload

/-- The doubles of a content that are checked when they are given. -/
def checked : Payload → List Float
  | text c => [c.fontSize]
  | rotator n => numbers n
  | image _ | bar _ | shape _ => []

/-- The doubles of a content that nothing checks. -/
def unchecked : Payload → List Float
  | text c => [c.fill.opacity]
  | bar c => [c.background.opacity, c.foreground.opacity]
  | shape c => [c.fill.opacity]
  | image _ | rotator _ => []

theorem numbers_eq (p : Payload) : numbers p = p.checked ++ p.unchecked := by
  cases p <;> rfl

theorem allFinite_iff {p : Payload} : AllFinite p ↔
    (∀ x ∈ p.checked, x.isFinite = true) ∧ ∀ x ∈ p.unchecked, x.isFinite = true := by
  rw [AllFinite, numbers_eq, List.forall_mem_append]

end Payload

/-- The doubles that come in with an edit and that nothing checks. -/
def LayerEdit.unchecked : LayerEdit → List Float
  | .textFill fill | .barFill _ fill | .shapeFill fill => [fill.opacity]
  | .position point => numbers point
  | .measure _ | .text _ | .font _ | .fontSize _ | .imageSource _ | .property .. | .size _
  | .scale _ | .angle _ | .toggleVisibility | .toggleLock => []

/-- The doubles that come in with an operation and that nothing checks. -/
def EditorOp.unchecked : EditorOp → List Float
  | .createText point _ | .createBar point | .createShape _ point | .createImage point
  | .createRotator point | .create _ point | .place point | .setBackgroundPosition point =>
    numbers point
  | .edit _ change => change.unchecked
  | .setTool _ | .delete _ | .reorder _ | .move .. | .select _ | .clearSelection
  | .setBackgroundSize .. | .setBackdropColor _ => []

/-- The doubles that come in with an event and that nothing checks. -/
def Event.unchecked : Event → List Float
  | .operation _ op => op.unchecked
  | .drag _ point => numbers point

/-! ## Images in pixels -/

/-- Every image that is measured has a size in pixels. -/
def Surroundings.InPixels (s : Surroundings) : Prop :=
  ∀ path size, s.imageSize? path = some size → size.InPixels

/-- Every image that an event measures has a size in pixels. -/
def Event.InPixels : Event → Prop
  | .operation s _ => s.InPixels
  | .drag .. => True

theorem Surroundings.InPixels.of_imageSize {s : Surroundings} {path : String} {size : Size}
    (hs : s.InPixels) (h : s.imageSize path = .ok size) : size.InPixels :=
  hs path size (imageSize_eq_ok_iff.1 h)

theorem Surroundings.inPixels_of_files (pick : LayerKind → Except Fault (Option String))
    (files : FileTree) : InPixels ⟨pick, WidgetSkin.imageSize? files⟩ :=
  fun _ _ h => inPixels_of_imageSize? h

/-! ## Layers -/

/-- The checked doubles of a layer are finite, the others have a property, and images have sizes
in pixels. -/
structure Vetted (P : Float → Prop) (payload : Payload) (g : Geometry) : Prop where
  checked : ∀ x ∈ payload.checked, x.isFinite = true
  unchecked : ∀ x ∈ payload.unchecked, P x
  position : ∀ x ∈ numbers g.position, P x
  size : AllFinite g.size
  scale : AllFinite g.scale
  angle : g.angle.isFinite = true
  inPixels : payload.kind.isRaster = true → g.size.InPixels

section Layers

variable {P : Float → Prop} {payload payload' : Payload} {g : Geometry} {s : Surroundings}

theorem Needle.allFinite_set {n : Needle} (h : AllFinite n) (p : Needle.Property) {v : Float}
    (hv : v.isFinite = true) : AllFinite (n.set p v) := by
  rw [allFinite_iff] at *
  cases p <;> simp [Needle.set, h, hv]

/-- A number that is set is finite. -/
theorem Needle.allFinite_of_setProperty {n turned : Needle} {name value : String}
    (h : AllFinite n) (hturned : n.setProperty name value = .ok turned) : AllFinite turned := by
  unfold setProperty at hturned
  split at hturned
  · cases hturned
  · split at hturned
    · cases hturned
    · next v _ hv =>
      split at hturned
      · cases hturned
      · next p _ =>
        cases hturned
        exact allFinite_set h p (by simpa using hv)

theorem Size.InPixels.allFinite {size : Size} (h : size.InPixels) : AllFinite size :=
  Size.allFinite_iff.2 (Bool.and_eq_true_iff.2 ⟨h.1.isFinite, h.2.isFinite⟩)

namespace Vetted

/-- A new layer is not scaled. -/
theorem fresh {point : Point} {size : Size} {angle : Float}
    (hchecked : ∀ x ∈ payload.checked, x.isFinite = true)
    (hunchecked : ∀ x ∈ payload.unchecked, P x) (hpoint : ∀ x ∈ numbers point, P x)
    (hsize : AllFinite size) (hangle : angle.isFinite = true)
    (hpixels : payload.kind.isRaster = true → size.InPixels) :
    Vetted P payload { position := point, size, angle } :=
  have hunit : AllFinite Scale.unit := by decide
  ⟨hchecked, hunchecked, hpoint, hsize, hunit, hangle, hpixels⟩

/-- Another content of the same kind. -/
theorem content (h : Vetted P payload g) (hkind : payload'.kind = payload.kind)
    (hchecked : ∀ x ∈ payload'.checked, x.isFinite = true)
    (hunchecked : ∀ x ∈ payload'.unchecked, P x) : Vetted P payload' g :=
  { h with
    checked := hchecked
    unchecked := hunchecked
    inPixels := fun hraster => h.inPixels (hkind ▸ hraster) }

theorem mapText? {f : TextContent → TextContent} (h : Vetted P payload g)
    (hmap : payload.mapText? f = some payload')
    (hsize : ∀ c, c.fontSize.isFinite = true → (f c).fontSize.isFinite = true)
    (hopacity : ∀ c, P c.fill.opacity → P (f c).fill.opacity) : Vetted P payload' g := by
  cases payload with
  | text c =>
    cases hmap
    refine h.content rfl ?_ ?_
    · have hc : c.fontSize.isFinite = true := h.checked _ (List.mem_singleton_self _)
      exact List.forall_mem_singleton.2 (hsize c hc)
    · exact List.forall_mem_singleton.2 (hopacity c (List.forall_mem_singleton.1 h.unchecked))
  | _ => cases hmap

theorem mapBar? {part : BarPart} {fill : Fill} (h : Vetted P payload g)
    (hmap : payload.mapBar? (·.setFill part fill) = some payload') (hfill : P fill.opacity) :
    Vetted P payload' g := by
  cases payload with
  | bar c =>
    cases hmap
    obtain ⟨hbackground, hforeground⟩ := List.forall_mem_cons.1 h.unchecked
    refine h.content rfl (List.forall_mem_nil _) ?_
    cases part with
    | background => exact List.forall_mem_cons.2 ⟨hfill, hforeground⟩
    | foreground => exact List.forall_mem_cons.2 ⟨hbackground, List.forall_mem_singleton.2 hfill⟩
  | _ => cases hmap

theorem mapShape? {fill : Fill} (h : Vetted P payload g)
    (hmap : payload.mapShape? (fun c => { c with fill }) = some payload') (hfill : P fill.opacity) :
    Vetted P payload' g := by
  cases payload with
  | shape c =>
    cases hmap
    exact h.content rfl (List.forall_mem_nil _) (List.forall_mem_singleton.2 hfill)
  | _ => cases hmap

theorem previewed (h : Vetted P payload g) (measure : String) :
    Vetted P (Edit.previewed measure payload) g := by
  cases payload <;> exact h.content rfl h.checked h.unchecked

/-- Another image, with the size that was measured. -/
theorem withSource (h : Vetted P payload g) (path : String) {size : Size}
    (hsize : size.InPixels) : Vetted P (Edit.withSource path payload) { g with size } := by
  have hmeasured : Vetted P payload { g with size } :=
    { h with size := hsize.allFinite, inPixels := fun _ => hsize }
  cases payload with
  | rotator n =>
    obtain ⟨-, -, hangles⟩ := Needle.allFinite_iff.1 h.checked
    have hzero : (0 : Float).isFinite = true := by decide
    exact hmeasured.content rfl (Needle.allFinite_iff.2 ⟨hzero, hzero, hangles⟩) h.unchecked
  | _ => exact hmeasured.content rfl h.checked h.unchecked

theorem resized (h : Vetted P payload g) {box : Size} (hfinite : box.isFinite = true)
    (hwidth : ¬ box.width ≤ 0) (hheight : ¬ box.height ≤ 0) :
    Vetted P payload (Edit.resized payload.kind.isRaster box g) := by
  unfold Edit.resized
  split
  · next hraster =>
    have hscale := (h.inPixels hraster.1).isFinite_scaleTo hfinite hwidth hheight
    exact { h with scale := Scale.allFinite_iff.2 hscale }
  · next hraster =>
    -- the box of an image in pixels is positive, so that it is kept
    have hplain : payload.kind.isRaster ≠ true := fun himage =>
      hraster ⟨himage, (h.inPixels himage).isPositive⟩
    have hunit : AllFinite Scale.unit := by decide
    exact { h with
      size := Size.allFinite_iff.2 hfinite
      scale := hunit
      inPixels := fun himage => absurd himage hplain }

/-- Another number of a needle; a start angle turns the needle as well. -/
theorem setProperty {n turned : Needle} {name value : String} (h : Vetted P (.rotator n) g)
    (hturned : n.setProperty name value = .ok turned) :
    Vetted P (.rotator turned)
      (if name = Needle.Property.startAngle.label then { g with angle := turned.startAngle }
        else g) := by
  have hfinite : AllFinite turned := Needle.allFinite_of_setProperty h.checked hturned
  have hcontent : Vetted P (.rotator turned) g := h.content rfl hfinite h.unchecked
  split
  · exact { hcontent with angle := (Needle.allFinite_iff.1 hfinite).2.2.1 }
  · exact hcontent

end Vetted

/-- Edited layers. -/
theorem LayerEdit.vetted_revise? {r r' : Record} {change : LayerEdit} (hs : s.InPixels)
    (hcheck : change.check = .ok ()) (hgiven : ∀ x ∈ change.unchecked, P x)
    (h : Vetted P r.payload r.geometry) (hr : change.revise? s r = some r') :
    Vetted P r'.payload r'.geometry := by
  cases change with
  | measure m =>
    obtain ⟨_, -, rfl⟩ := Option.map_eq_some_iff.1 hr
    exact h.previewed m
  | text _ | font _ =>
    obtain ⟨payload, hpayload, rfl⟩ := Option.map_eq_some_iff.1 hr
    exact h.mapText? hpayload (fun _ => id) (fun _ => id)
  | fontSize points =>
    obtain ⟨payload, hpayload, rfl⟩ := Option.map_eq_some_iff.1 hr
    have hfinite : points.isFinite = true ∧ ¬ points ≤ 0 := by simpa [check] using hcheck
    exact h.mapText? hpayload (fun _ _ => hfinite.1) (fun _ => id)
  | textFill fill =>
    obtain ⟨payload, hpayload, rfl⟩ := Option.map_eq_some_iff.1 hr
    exact h.mapText? hpayload (fun _ => id) (fun _ _ => List.forall_mem_singleton.1 hgiven)
  | barFill part fill =>
    obtain ⟨payload, hpayload, rfl⟩ := Option.map_eq_some_iff.1 hr
    exact h.mapBar? hpayload (List.forall_mem_singleton.1 hgiven)
  | shapeFill fill =>
    obtain ⟨payload, hpayload, rfl⟩ := Option.map_eq_some_iff.1 hr
    exact h.mapShape? hpayload (List.forall_mem_singleton.1 hgiven)
  | imageSource path =>
    rw [revise?] at hr
    split at hr
    · obtain ⟨size, hsize, rfl⟩ := Option.map_eq_some_iff.1 hr
      exact h.withSource path (hs path size hsize)
    · cases hr
  | property name value =>
    rw [revise?] at hr
    split at hr
    · next n hn =>
      obtain ⟨turned, hturned, rfl⟩ := Option.map_eq_some_iff.1 hr
      rw [hn] at h
      exact h.setProperty (toOption_eq_some_iff.1 hturned)
    all_goals cases hr
  | position point =>
    cases hr
    exact { h with position := hgiven }
  | size box =>
    cases hr
    have hbox : (box.isFinite = true ∧ ¬ box.width ≤ 0) ∧ ¬ box.height ≤ 0 := by
      simpa [check] using hcheck
    exact h.resized hbox.1.1 hbox.1.2 hbox.2
  | scale factors =>
    cases hr
    have hfactors : ((factors.x.isFinite = true ∧ factors.y.isFinite = true) ∧ ¬ factors.x ≤ 0) ∧
        ¬ factors.y ≤ 0 := by
      simpa [check] using hcheck
    exact { h with scale := Scale.allFinite_iff.2 hfactors.1.1 }
  | angle degrees =>
    cases hr
    have hdegrees : degrees.isFinite = true := by simpa [check] using hcheck
    exact { h with angle := hdegrees }
  | toggleVisibility | toggleLock =>
    cases hr
    exact h

/-! ## New layers -/

namespace EditorConfig

variable {config : EditorConfig} {point : Point}

theorem allFinite_iff : AllFinite config ↔
    config.fontSize.isFinite = true ∧ AllFinite config.textFill ∧ AllFinite config.textBox ∧
      AllFinite config.barBox ∧ AllFinite config.barBackground ∧ AllFinite config.barForeground ∧
      config.rotatorPreviewAngle.isFinite = true ∧ AllFinite config.shapeBox ∧
      AllFinite config.background := by
  change AllFinite (config.textContent, config.fontName, config.fontSize, config.textFill,
    config.textBox, config.barBox, config.barBackground, config.barForeground, config.needleImage,
    config.rotatorPreviewAngle, config.shapeBox, config.background) ↔ _
  simp [allFinite_float]

section Given

variable (hconfig : AllFinite config) (hP : ∀ x : Float, x.isFinite = true → P x)
  (hpoint : ∀ x ∈ numbers point, P x)
include hconfig hP hpoint

theorem vetted_text (words : String) :
    Vetted P (config.text point words).payload (config.text point words).geometry := by
  obtain ⟨hsize, hfill, hbox, -⟩ := allFinite_iff.1 hconfig
  exact .fresh (List.forall_mem_singleton.2 hsize) (fun x hx => hP x (hfill x hx)) hpoint hbox
    (by decide) nofun

theorem vetted_bar : Vetted P (config.bar point).payload (config.bar point).geometry := by
  obtain ⟨-, -, -, hbox, hbackground, hforeground, -⟩ := allFinite_iff.1 hconfig
  have hfills : ∀ x ∈ [config.barBackground.opacity, config.barForeground.opacity], P x :=
    List.forall_mem_cons.2 ⟨hP _ (hbackground _ (List.mem_singleton_self _)),
      fun x hx => hP x (hforeground x hx)⟩
  exact .fresh (List.forall_mem_nil _) hfills hpoint hbox (by decide) nofun

theorem vetted_shape (outline : Outline) :
    Vetted P (config.shape outline point).payload (config.shape outline point).geometry := by
  obtain ⟨-, -, -, -, -, -, -, hbox, -⟩ := allFinite_iff.1 hconfig
  have hfill : P (shapeFill outline).opacity :=
    hP _ (by cases outline <;> decide)
  exact .fresh (List.forall_mem_nil _) (List.forall_mem_singleton.2 hfill) hpoint hbox
    (by decide) nofun

theorem vetted_creation (hs : s.InPixels) {kind : LayerKind} {new : Creation}
    (h : config.creation s point kind = .ok (some new)) : Vetted P new.payload new.geometry := by
  cases kind with
  | text =>
    cases h
    exact vetted_text hconfig hP hpoint config.textContent
  | bar =>
    cases h
    exact vetted_bar hconfig hP hpoint
  | shape =>
    cases h
    exact vetted_shape hconfig hP hpoint .rectangle
  | image =>
    obtain ⟨source?, -, h⟩ := bind_eq_ok_iff.1 h
    cases source? with
    | none => cases h
    | some source =>
      obtain ⟨size, hmeasured, h⟩ := bind_eq_ok_iff.1 h
      cases h
      have hpixels := hs.of_imageSize hmeasured
      exact .fresh (List.forall_mem_nil _) (List.forall_mem_nil _) hpoint hpixels.allFinite
        (by decide) fun _ => hpixels
  | rotator =>
    obtain ⟨source?, -, h⟩ := bind_eq_ok_iff.1 h
    cases source? with
    | none => cases h
    | some source =>
      obtain ⟨size, hmeasured, h⟩ := bind_eq_ok_iff.1 h
      cases h
      have hpixels := hs.of_imageSize hmeasured
      obtain ⟨-, -, -, -, -, -, hangle, -⟩ := allFinite_iff.1 hconfig
      have hdefaults : (0 : Float).isFinite = true ∧ (90 : Float).isFinite = true := by decide
      have hneedle : AllFinite ({ source } : Needle) :=
        Needle.allFinite_iff.2 ⟨hdefaults.1, hdefaults.1, hdefaults.1, hdefaults.2⟩
      exact .fresh hneedle (List.forall_mem_nil _) hpoint hpixels.allFinite hangle fun _ => hpixels

end Given

end EditorConfig

/-- New layers. -/
theorem EditorOp.vetted_creation? {config : EditorConfig} {tool : Tool} {op : EditorOp}
    {new : Creation} (hconfig : AllFinite config) (hP : ∀ x : Float, x.isFinite = true → P x)
    (hs : s.InPixels) (hgiven : ∀ x ∈ op.unchecked, P x)
    (h : op.creation? s config tool = some new) : Vetted P new.payload new.geometry := by
  have hcreation : ∀ {point kind}, (∀ x ∈ numbers point, P x) →
      (config.creation s point kind).toOption.join = some new →
      Vetted P new.payload new.geometry := fun hpoint h =>
    config.vetted_creation hconfig hP hpoint hs
      (toOption_eq_some_iff.1 (Option.join_eq_some_iff.1 h))
  cases op with
  | createText point words =>
    cases h
    exact config.vetted_text hconfig hP hgiven words
  | createBar point =>
    cases h
    exact config.vetted_bar hconfig hP hgiven
  | createShape outline point =>
    cases h
    exact config.vetted_shape hconfig hP hgiven outline
  | createImage _ | createRotator _ | create _ _ => exact hcreation hgiven h
  | place point =>
    obtain ⟨kind, -, h⟩ := Option.bind_eq_some_iff.1 h
    exact hcreation hgiven h
  | _ => cases h

end Layers

end WidgetSkin
