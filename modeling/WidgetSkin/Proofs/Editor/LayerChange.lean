import WidgetSkin.Proofs.Editor.Run
import WidgetSkin.Proofs.Success

/-!
# Changes of one layer

What an edit of a layer comes to: it is refused, or it gives a rewritten layer, with another
geometry if it writes one.

## Main definitions

* `LayerChange` — a rewritten layer, with another geometry if there is one.
* `LayerEdit.check`, `LayerEdit.rewrite` — what an edit asks for and what it comes to.

## Main statements

* `LayerEdit.rewrite_keeps` — what no edit changes of a layer.
* `LayerEdit.rewrite_ne_noObject` — no edit fails for want of an object.
-/

namespace WidgetSkin

/-- What an edit of a layer comes to. -/
structure LayerChange where
  answer : Answer := .nothing
  layer : Layer
  /-- The new geometry, if the edit writes one. -/
  placement : Option Geometry := none

/-- Fail unless a measure applies to a kind of layer. -/
def applicable (measure : String) (kind : LayerKind) : Except Fault Unit :=
  if measure = Catalog.customText then
    if kind = .text then .ok () else .error (.measure (.notApplicable measure kind))
  else
    match Catalog.find? measure with
    | some entry =>
      if entry.kind = kind then .ok () else .error (.measure (.notApplicable measure kind))
    | none => .error (.measure (.unknown measure))

namespace Payload

/-- Another content of a text. -/
def mapText? (f : TextContent → TextContent) : Payload → Option Payload
  | text content => some (text (f content))
  | image _ | rotator _ | bar _ | shape _ => none

/-- Another content of a bar. -/
def mapBar? (f : BarContent → BarContent) : Payload → Option Payload
  | bar content => some (bar (f content))
  | text _ | image _ | rotator _ | shape _ => none

/-- Another content of a shape. -/
def mapShape? (f : ShapeContent → ShapeContent) : Payload → Option Payload
  | shape content => some (shape (f content))
  | text _ | image _ | rotator _ | bar _ => none

end Payload

namespace LayerChange

/-- Another content for a layer of the kind that `f` is made for. -/
def ofContent (l : Layer) (expected : LayerKind) (f : Payload → Option Payload) :
    Except Fault LayerChange :=
  match f l.payload with
  | some payload => .ok { layer := { l with payload } }
  | none => .error (.invalid (.kindMismatch l.id l.kind expected))

/-- Another number for a needle; a start angle also turns the needle. -/
def ofNeedle (l : Layer) (g : Geometry) (name value : String) : Except Fault LayerChange :=
  match l.payload with
  | .rotator n => do
    let turned ← n.setProperty name value
    return {
      layer := { l with payload := .rotator turned }
      placement :=
        if name = Needle.Property.startAngle.label then some { g with angle := turned.startAngle }
        else none }
  | other => .error (.invalid (.kindMismatch l.id other.kind .rotator))

/-- Another image for a raster layer, in the box of the file. -/
def ofImage (s : Surroundings) (l : Layer) (g : Geometry) (path : String) :
    Except Fault LayerChange :=
  if l.kind.isRaster then do
    let size ← s.imageSize path
    return {
      layer := { l with payload := Edit.withSource path l.payload }
      placement := some { g with size } }
  else .error (.invalid (.noImageSource l.id l.kind))

/-- Another geometry. -/
def ofGeometry (l : Layer) (g : Geometry) : LayerChange :=
  { layer := l, placement := some g }

end LayerChange

namespace LayerEdit

/-- What an edit asks of its data before it looks for the layer. -/
def check : LayerEdit → Except Fault Unit
  | .fontSize points =>
    if !points.isFinite || points ≤ 0 then .error (.invalid (.notPositive .fontSize)) else .ok ()
  | .size box =>
    if !box.isFinite || box.width ≤ 0 || box.height ≤ 0 then
      .error (.invalid (.notPositive .size))
    else .ok ()
  | .scale factors =>
    if !(factors.x.isFinite && factors.y.isFinite) || factors.x ≤ 0 || factors.y ≤ 0 then
      .error (.invalid (.notPositive .scale))
    else .ok ()
  | .angle degrees => if !degrees.isFinite then .error (.invalid .angleNotFinite) else .ok ()
  | .measure _ | .text _ | .font _ | .textFill _ | .barFill .. | .shapeFill _ | .imageSource _
  | .property .. | .position _ | .toggleVisibility | .toggleLock => .ok ()

/-- What an edit makes of a layer with its geometry. -/
def rewrite (s : Surroundings) (l : Layer) (g : Geometry) : LayerEdit → Except Fault LayerChange
  | .measure m => do
    applicable m l.kind
    return { layer := { l with measure := some m, payload := Edit.previewed m l.payload } }
  | .text words =>
    LayerChange.ofContent l .text (Payload.mapText? fun c => { c with text := words })
  | .font fontName =>
    LayerChange.ofContent l .text (Payload.mapText? fun c => { c with fontName })
  | .fontSize points =>
    LayerChange.ofContent l .text (Payload.mapText? fun c => { c with fontSize := points })
  | .textFill fill =>
    LayerChange.ofContent l .text (Payload.mapText? fun c => { c with fill })
  | .barFill part fill =>
    LayerChange.ofContent l .bar (Payload.mapBar? fun c => c.setFill part fill)
  | .shapeFill fill =>
    LayerChange.ofContent l .shape (Payload.mapShape? fun c => { c with fill })
  | .imageSource path => LayerChange.ofImage s l g path
  | .property name value => LayerChange.ofNeedle l g name value
  | .position point => .ok (LayerChange.ofGeometry l { g with position := point })
  | .size box => .ok (LayerChange.ofGeometry l (Edit.resized l.kind.isRaster box g))
  | .scale factors => .ok (LayerChange.ofGeometry l { g with scale := factors })
  | .angle degrees => .ok (LayerChange.ofGeometry l { g with angle := degrees })
  | .toggleVisibility =>
    .ok { answer := .flag !l.visible, layer := { l with visible := !l.visible } }
  | .toggleLock => .ok { answer := .flag !l.locked, layer := { l with locked := !l.locked } }

end LayerEdit

/-! ## What no edit changes -/

/-- A change that leaves to a layer what it was given when it was created, and that creates no
layer. -/
structure LayerChange.Keeps (c : LayerChange) (l : Layer) : Prop where
  id_eq : c.layer.id = l.id
  name_eq : c.layer.name = l.name
  handle_eq : c.layer.handle = l.handle
  kind_eq : c.layer.kind = l.kind
  answer_ne : ∀ id?, c.answer ≠ .created id?

@[simp] theorem Edit.kind_previewed (measure : String) (payload : Payload) :
    (Edit.previewed measure payload).kind = payload.kind := by
  cases payload <;> rfl

@[simp] theorem Edit.kind_withSource (path : String) (payload : Payload) :
    (Edit.withSource path payload).kind = payload.kind := by
  cases payload <;> rfl

namespace Payload

variable {payload payload' : Payload}

theorem kind_of_mapText? {f : TextContent → TextContent}
    (h : payload.mapText? f = some payload') : payload'.kind = payload.kind := by
  cases payload <;> cases h
  rfl

theorem kind_of_mapBar? {f : BarContent → BarContent}
    (h : payload.mapBar? f = some payload') : payload'.kind = payload.kind := by
  cases payload <;> cases h
  rfl

theorem kind_of_mapShape? {f : ShapeContent → ShapeContent}
    (h : payload.mapShape? f = some payload') : payload'.kind = payload.kind := by
  cases payload <;> cases h
  rfl

end Payload

namespace LayerChange

variable {s : Surroundings} {l : Layer} {g : Geometry} {c : LayerChange}

theorem keeps_ofContent {expected : LayerKind} {f : Payload → Option Payload}
    (hf : ∀ payload, f l.payload = some payload → payload.kind = l.payload.kind)
    (h : ofContent l expected f = .ok c) : c.Keeps l := by
  unfold ofContent at h
  split at h
  · next payload hpayload =>
    cases h
    exact ⟨rfl, rfl, rfl, hf payload hpayload, by simp⟩
  · cases h

theorem keeps_ofNeedle {name value : String} (h : ofNeedle l g name value = .ok c) :
    c.Keeps l := by
  unfold ofNeedle at h
  split at h
  · next hp =>
    obtain ⟨turned, -, hc⟩ := bind_eq_ok_iff.1 h
    cases hc
    exact ⟨rfl, rfl, rfl, by simp [Layer.kind, hp, Payload.kind], by simp⟩
  · cases h

theorem keeps_ofImage {path : String} (h : ofImage s l g path = .ok c) : c.Keeps l := by
  unfold ofImage at h
  split at h
  · obtain ⟨size, -, hc⟩ := bind_eq_ok_iff.1 h
    cases hc
    exact ⟨rfl, rfl, rfl, Edit.kind_withSource path l.payload, by simp⟩
  · cases h

end LayerChange

/-- No edit changes the identifier, the name, the object or the kind of a layer. -/
theorem LayerEdit.rewrite_keeps {s : Surroundings} {l : Layer} {g : Geometry}
    {change : LayerEdit} {c : LayerChange} (h : change.rewrite s l g = .ok c) : c.Keeps l := by
  cases change with
  | measure m =>
    obtain ⟨_, -, hc⟩ := bind_eq_ok_iff.1 h
    cases hc
    exact ⟨rfl, rfl, rfl, Edit.kind_previewed m l.payload, by simp⟩
  | text _ | font _ | fontSize _ | textFill _ =>
    exact LayerChange.keeps_ofContent (fun _ => Payload.kind_of_mapText?) h
  | barFill _ _ => exact LayerChange.keeps_ofContent (fun _ => Payload.kind_of_mapBar?) h
  | shapeFill _ => exact LayerChange.keeps_ofContent (fun _ => Payload.kind_of_mapShape?) h
  | imageSource _ => exact LayerChange.keeps_ofImage h
  | property _ _ => exact LayerChange.keeps_ofNeedle h
  | position _ | size _ | scale _ | angle _ | toggleVisibility | toggleLock =>
    cases h
    exact ⟨rfl, rfl, rfl, rfl, by simp [LayerChange.ofGeometry]⟩

/-! ## Faults -/

section Faults

variable {s : Surroundings} {l : Layer} {g : Geometry} (id : LayerId)

theorem applicable_ne_noObject (measure : String) (kind : LayerKind) :
    applicable measure kind ≠ .error (.invalid (.noObject id)) := by
  unfold applicable
  split
  · split <;> simp
  · split
    · split <;> simp
    · simp

theorem Surroundings.imageSize_ne_noObject (s : Surroundings) (path : String) :
    s.imageSize path ≠ .error (.invalid (.noObject id)) := by
  unfold imageSize
  split <;> simp

theorem Needle.setProperty_ne_noObject (n : Needle) (name value : String) :
    n.setProperty name value ≠ .error (.invalid (.noObject id)) := by
  unfold setProperty
  split
  · simp
  · split
    · simp
    · split <;> simp

theorem LayerEdit.check_ne_noObject (change : LayerEdit) :
    change.check ≠ .error (.invalid (.noObject id)) := by
  cases change with
  | fontSize _ | size _ | scale _ | angle _ =>
    simp only [check]
    split <;> simp
  | measure _ | text _ | font _ | textFill _ | barFill _ _ | shapeFill _ | imageSource _
  | property _ _ | position _ | toggleVisibility | toggleLock => simp [check]

theorem LayerChange.ofContent_ne_noObject (expected : LayerKind) (f : Payload → Option Payload) :
    ofContent l expected f ≠ .error (.invalid (.noObject id)) := by
  unfold ofContent
  split <;> simp

/-- No edit fails for want of an object. -/
theorem LayerEdit.rewrite_ne_noObject (change : LayerEdit) :
    change.rewrite s l g ≠ .error (.invalid (.noObject id)) := by
  cases change with
  | measure m => exact bind_ne_error (applicable_ne_noObject id m l.kind) (by simp)
  | text _ | font _ | fontSize _ | textFill _ | barFill _ _ | shapeFill _ =>
    exact LayerChange.ofContent_ne_noObject id _ _
  | imageSource path =>
    simp only [rewrite, LayerChange.ofImage]
    split
    · exact bind_ne_error (s.imageSize_ne_noObject id path) (by simp)
    · simp
  | property name value =>
    simp only [rewrite, LayerChange.ofNeedle]
    split
    · exact bind_ne_error (Needle.setProperty_ne_noObject id _ name value) (by simp)
    · simp
  | position _ | size _ | scale _ | angle _ | toggleVisibility | toggleLock => simp [rewrite]

end Faults

end WidgetSkin
