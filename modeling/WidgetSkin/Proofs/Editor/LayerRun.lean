import WidgetSkin.Proofs.Editor.InStep
import WidgetSkin.Proofs.Editor.LayerChange

/-!
# Runs of edits

An edit of a layer checks its data, writes the layer, and brings the canvas up to date in one or
two further writes. On an editor in step with its canvas all of this comes to one change: either
the edit fails and nothing was written, or layer and object are rewritten together.

## Main definitions

* `LayerEdit.outcome` — an edit as one change of the editor.

## Main statements

* `Editor.InStep.writing_eq` — a layer and its object that are written one after the other.
* `LayerEdit.exec_run` — an edit does what its outcome says.
-/

namespace WidgetSkin

/-! ## Both sides of a change -/

/-- An editor hears once of a new geometry. -/
theorem Editor.hear_of_object? {e : Editor} {h : Handle} {o : CanvasObject}
    (hlistener : e.listener < e.canvas.listeners) (ho : e.canvas.object? h = some o)
    (g : Geometry) :
    e.hear (e.canvas.setGeometry h g) =
      { e with
        canvas := e.canvas.change h fun o => { o with geometry := g }
        revision := e.revision + 1 } := by
  rw [hear, Canvas.setGeometry_of_object? ho, Canvas.countP_notices hlistener]

/-- Another content of its kind shows as another content of the object. -/
theorem Layer.objectAt_withPayload (l : Layer) {payload : Payload} (hkind : payload.kind = l.kind)
    (measure : Option String) (g : Geometry) :
    { l.objectAt g with payload } = { l with measure, payload }.objectAt g := by
  simpa [objectAt, kind] using hkind.symm

namespace Editor.InStep

variable {e : Editor} {l m : Layer} {p : Option Geometry}

/-- A layer that is written over, with a change of its object that shows the new layer. -/
theorem writing_eq (he : e.InStep) (hl : l ∈ e.layers) {f : CanvasObject → CanvasObject}
    (hhandle : m.handle = l.handle)
    (hf : ∀ g, f (l.objectAt g) = m.objectAt (p.getD g)) :
    { e.setLayer m with
      canvas := e.canvas.change l.handle f
      revision := e.revision + p.toList.length } = e.writing m p := by
  obtain ⟨g, hg⟩ := he.object?_eq l hl
  rw [Editor.writing, hhandle, Canvas.change_congr he.canvas_handles_nodup hg
    (g := fun o => m.objectAt (p.getD o.geometry)) (hf g)]

/-- A new geometry of a layer's object, of which the editor hears. -/
theorem hear_setGeometry (he : e.InStep) (hl : l ∈ e.layers) (g : Geometry) :
    e.hear (e.canvas.setGeometry l.handle g) = e.writing l (some g) := by
  obtain ⟨old, hold⟩ := he.object?_eq l hl
  rw [hear_of_object? he.listener_lt hold,
    ← he.writing_eq hl (f := fun o => { o with geometry := g }) rfl fun _ => rfl,
    setLayer_self he.ids_nodup hl]
  rfl

theorem object?_of_geometry (he : e.InStep) (hl : l ∈ e.layers) {g : Geometry}
    (hg : e.geometry l.id = .ok g) : e.canvas.object? l.handle = some (l.objectAt g) := by
  obtain ⟨found, hobject, hfound⟩ := he.geometry_eq hl
  rwa [Except.ok.inj (hg.symm.trans hfound)]

/-- A layer that is written over is found in its new form. -/
theorem layer?_setLayer_self (he : e.InStep) (hl : l ∈ e.layers) (hid : m.id = l.id) :
    (e.setLayer m).layer? l.id = some m :=
  (layer?_setLayer he.ids_nodup hl hid l.id).trans (if_pos hid.symm)

/-- A layer that is written over keeps its geometry on the canvas. -/
theorem geometry_setLayer (he : e.InStep) (hl : l ∈ e.layers) (hid : m.id = l.id)
    (hhandle : m.handle = l.handle) : (e.setLayer m).geometry l.id = e.geometry l.id := by
  simp only [geometry, requireLayer, he.layer?_setLayer_self hl hid, he.layer?_eq hl, ok_bind,
    hhandle]
  rfl

end Editor.InStep

/-! ## Runs of edits -/

namespace Edit

/-- Change the content of a layer of the kind that `f` is made for. -/
def changeContent (id : LayerId) (expected : LayerKind) (f : Payload → Option Payload) :
    Edit Unit := do
  let l ← layer id
  match f l.payload with
  | some payload => setPayload l payload
  | none => throw (.invalid (.kindMismatch id l.kind expected))

theorem changeText_eq (id : LayerId) (f : TextContent → TextContent) :
    changeText id f = changeContent id .text (Payload.mapText? f) := by
  unfold changeText changeContent
  congr 1
  funext l
  cases hp : l.payload <;> simp [Payload.mapText?, Layer.kind, hp]

theorem changeBar_eq (id : LayerId) (f : BarContent → BarContent) :
    changeBar id f = changeContent id .bar (Payload.mapBar? f) := by
  unfold changeBar changeContent
  congr 1
  funext l
  cases hp : l.payload <;> simp [Payload.mapBar?, Layer.kind, hp]

theorem changeShape_eq (id : LayerId) (f : ShapeContent → ShapeContent) :
    changeShape id f = changeContent id .shape (Payload.mapShape? f) := by
  unfold changeShape changeContent
  congr 1
  funext l
  cases hp : l.payload <;> simp [Payload.mapShape?, Layer.kind, hp]

theorem exec_sync {session : Session} {id : LayerId} {l : Layer}
    (h : session.editor.layer? id = some l) :
    exec (sync id) session =
      (.ok (), { session with editor := { session.editor with
        canvas := session.editor.canvas.setPayload l.handle l.payload } }) := by
  simp [sync, Editor.requireLayer, h, onCanvas]

theorem exec_changeGeometry {session : Session} {id : LayerId} {l : Layer} {g : Geometry}
    (hl : session.editor.layer? id = some l) (hg : session.editor.geometry id = .ok g)
    (f : Geometry → Geometry) :
    exec (changeGeometry id f) session =
      (.ok (), { session with
        editor := session.editor.hear (session.editor.canvas.setGeometry l.handle (f g)) }) := by
  simp [changeGeometry, hg, Editor.requireLayer, hl, writeGeometry]

theorem exec_requireApplicable (measure : String) (kind : LayerKind) (session : Session) :
    exec (requireApplicable measure kind) session = (applicable measure kind, session) := by
  unfold requireApplicable applicable
  split
  · cases kind <;> rfl
  · cases Catalog.find? measure with
    | none => rfl
    | some entry => by_cases hkind : entry.kind = kind <;> simp [hkind]

section InStep

variable {e : Editor} {l : Layer} {g : Geometry} {asked : List LayerKind}

/-- Measure and content of a layer are written and shown. -/
theorem exec_setLayer_sync (he : e.InStep) (hl : l ∈ e.layers) {measure : Option String}
    {payload : Payload} (hkind : payload.kind = l.kind) :
    exec (update (fun e => e.setLayer { l with measure, payload }) >>= fun _ => sync l.id)
        { editor := e, asked } =
      (.ok (), { editor := e.writing { l with measure, payload } none, asked }) := by
  have hfound := he.layer?_setLayer_self hl (m := { l with measure, payload }) rfl
  have hwriting := he.writing_eq hl (m := { l with measure, payload }) (p := none)
    (f := fun o => { o with payload }) rfl fun g =>
      l.objectAt_withPayload hkind measure g
  rw [exec_bind, exec_update]
  dsimp only
  rw [exec_sync hfound, ← hwriting]
  rfl

theorem exec_setPayload (he : e.InStep) (hl : l ∈ e.layers) {payload : Payload}
    (hkind : payload.kind = l.kind) :
    exec (setPayload l payload) { editor := e, asked } =
      (.ok (), { editor := e.writing { l with payload } none, asked }) :=
  exec_setLayer_sync he hl hkind

/-- The session after a change of a layer that may have failed. -/
def settled (e : Editor) (asked : List LayerKind) :
    Except Fault LayerChange → Except Fault Answer × Session
  | .ok c => (.ok c.answer, { editor := e.writing c.layer c.placement, asked })
  | .error fault => (.error fault, { editor := e, asked })

/-- Another content for a layer of the kind that `f` is made for. -/
theorem exec_changeContent (he : e.InStep) (hl : l ∈ e.layers) {expected : LayerKind}
    {f : Payload → Option Payload}
    (hf : ∀ payload, f l.payload = some payload → payload.kind = l.payload.kind) :
    exec (changeContent l.id expected f >>= fun _ => pure Answer.nothing) { editor := e, asked } =
      settled e asked (LayerChange.ofContent l expected f) := by
  rw [exec_bind, changeContent, exec_bind, exec_layer, Editor.requireLayer, he.layer?_eq hl]
  dsimp only
  unfold LayerChange.ofContent
  cases hpayload : f l.payload with
  | some payload =>
    dsimp only
    rw [exec_setPayload he hl (hf payload hpayload)]
    rfl
  | none => rfl

theorem exec_setMeasure (he : e.InStep) (hl : l ∈ e.layers) (s : Surroundings) (m : String) :
    exec (setMeasure l.id m >>= fun _ => pure Answer.nothing) { editor := e, asked } =
      settled e asked (LayerEdit.rewrite s l g (.measure m)) := by
  rw [exec_bind, setMeasure, exec_bind, exec_layer, Editor.requireLayer, he.layer?_eq hl]
  dsimp only
  rw [exec_bind, exec_requireApplicable]
  cases happlicable : applicable m l.kind with
  | error fault => simp [LayerEdit.rewrite, happlicable, settled]
  | ok _ =>
    dsimp only
    rw [exec_setLayer_sync he hl (kind_previewed m l.payload), LayerEdit.rewrite, happlicable]
    rfl

/-- A layer whose content and geometry are written is shown. -/
theorem exec_sync_hear (he : e.InStep) (hl : l ∈ e.layers) {payload : Payload}
    (hkind : payload.kind = l.kind) (g : Geometry) :
    let told := (e.setLayer { l with payload }).hear (e.canvas.setGeometry l.handle g)
    exec (sync l.id) { editor := told, asked } =
      (.ok (), { editor := e.writing { l with payload } (some g), asked }) := by
  intro told
  obtain ⟨old, hold⟩ := he.object?_eq l hl
  have hfound : told.layer? l.id = some { l with payload } :=
    he.layer?_setLayer_self hl rfl
  have hwriting := he.writing_eq hl (m := { l with payload }) (p := some g)
    (f := fun o => { o with geometry := g, payload }) rfl fun _ =>
      l.objectAt_withPayload hkind l.measure g
  have htold := Editor.hear_of_object? (e := e.setLayer { l with payload }) he.listener_lt hold g
  rw [exec_sync hfound, ← hwriting, show told = _ from htold]
  simp only [Canvas.setPayload, Canvas.change_change]
  rfl

/-- A needle is written, turned on the canvas if its start angle is meant, and shown. -/
theorem exec_setProperty (he : e.InStep) (hl : l ∈ e.layers) (hg : e.geometry l.id = .ok g)
    (name value : String) :
    exec (setProperty l.id name value >>= fun _ => pure Answer.nothing) { editor := e, asked } =
      settled e asked (LayerChange.ofNeedle l g name value) := by
  rw [exec_bind, setProperty, exec_bind, exec_layer, Editor.requireLayer, he.layer?_eq hl]
  dsimp only
  unfold LayerChange.ofNeedle
  cases hp : l.payload with
  | rotator n =>
    dsimp only
    rw [exec_bind, exec_ofExcept]
    cases hturned : n.setProperty name value with
    | error fault => rfl
    | ok turned =>
      have hkind : (Payload.rotator turned).kind = l.kind := by
        simp [Layer.kind, hp, Payload.kind]
      dsimp only
      by_cases hname : name = Needle.Property.startAngle.label
      · -- The layer is looked for again after it was written, with the geometry of before.
        have hfound := he.layer?_setLayer_self hl (m := { l with payload := .rotator turned }) rfl
        have hgeometry := he.geometry_setLayer hl (m := { l with payload := .rotator turned })
          rfl rfl
        rw [if_pos hname, exec_bind, exec_update]
        dsimp only
        rw [exec_bind, exec_changeGeometry hfound (hgeometry.trans hg)]
        dsimp only
        rw [show (e.setLayer { l with payload := .rotator turned }).canvas = e.canvas from rfl,
          exec_sync_hear he hl hkind, ok_bind, if_pos hname]
        rfl
      · rw [if_neg hname, exec_setLayer_sync he hl hkind, ok_bind, if_neg hname]
        rfl
  | text _ | image _ | bar _ | shape _ => rfl

/-- An image is measured, written with its box, and shown. -/
theorem exec_setImageSource (he : e.InStep) (hl : l ∈ e.layers) (hg : e.geometry l.id = .ok g)
    (s : Surroundings) (path : String) :
    exec (setImageSource s l.id path >>= fun _ => pure Answer.nothing) { editor := e, asked } =
      settled e asked (LayerChange.ofImage s l g path) := by
  have hgeometry : e.canvas.geometry? l.handle = some g :=
    Canvas.geometry?_of_object? (he.object?_of_geometry hl hg)
  rw [exec_bind, setImageSource, exec_bind, exec_layer, Editor.requireLayer, he.layer?_eq hl]
  dsimp only
  rw [exec_bind, exec_refuseIf]
  unfold LayerChange.ofImage
  cases hraster : l.kind.isRaster with
  | false => rfl
  | true =>
    simp only [Bool.not_true, Bool.false_eq_true, if_false, if_true, exec_bind, exec_imageSize]
    cases hsize : s.imageSize path with
    | error fault => rfl
    | ok size =>
      have hwrite := @exec_sync_hear _ _ asked he hl _ (kind_withSource path l.payload)
        { g with size }
      simp only [exec_pure, exec_update, exec_editor]
      rw [show (e.setLayer { l with payload := withSource path l.payload }).canvas = e.canvas
        from rfl, hgeometry]
      dsimp only
      rw [exec_bind, writeGeometry, exec_update]
      dsimp only
      rw [show (e.setLayer { l with payload := withSource path l.payload }).canvas = e.canvas
        from rfl, hwrite]
      rfl

theorem exec_changeGeometry_of_mem (he : e.InStep) (hl : l ∈ e.layers)
    (hg : e.geometry l.id = .ok g) (f : Geometry → Geometry) :
    exec (changeGeometry l.id f >>= fun _ => pure Answer.nothing) { editor := e, asked } =
      settled e asked (.ok (LayerChange.ofGeometry l (f g))) := by
  rw [exec_bind, exec_changeGeometry (he.layer?_eq hl) hg, he.hear_setGeometry hl]
  rfl

/-- An edit that checks its data first. -/
theorem exec_refuseIf_bind {m : Edit Answer} {r : Except Fault LayerChange}
    (h : exec m { editor := e, asked } = settled e asked r) (condition : Bool) (cause : Invalid) :
    exec (refuseIf condition cause >>= fun _ => m) { editor := e, asked } =
      settled e asked
        ((if condition then .error (.invalid cause) else .ok ()) >>= fun _ => r) := by
  rw [exec_bind, exec_refuseIf]
  cases condition with
  | true => rfl
  | false => exact h

theorem exec_toggleVisibility (he : e.InStep) (hl : l ∈ e.layers) :
    exec (Answer.flag <$> toggleVisibility l.id) { editor := e, asked } =
      settled e asked
        (.ok { answer := .flag !l.visible, layer := { l with visible := !l.visible } }) := by
  have hwriting := he.writing_eq hl (m := { l with visible := !l.visible }) (p := none)
    (f := fun o => { o with visible := !l.visible }) rfl fun _ => rfl
  rw [exec_map, toggleVisibility, exec_bind, exec_layer, Editor.requireLayer, he.layer?_eq hl]
  simp only [exec_bind, exec_update, onCanvas, exec_pure, settled, ← hwriting]
  rfl

theorem exec_toggleLock (he : e.InStep) (hl : l ∈ e.layers) :
    exec (Answer.flag <$> toggleLock l.id) { editor := e, asked } =
      settled e asked
        (.ok { answer := .flag !l.locked, layer := { l with locked := !l.locked } }) := by
  have hwriting := he.writing_eq hl (m := { l with locked := !l.locked }) (p := none)
    (f := fun o => { o with selectable := l.locked }) rfl fun _ => by simp [Layer.objectAt]; rfl
  rw [exec_map, toggleLock, exec_bind, exec_layer, Editor.requireLayer, he.layer?_eq hl]
  simp only [exec_bind, exec_update, onCanvas, exec_pure, settled, ← hwriting]
  rfl

end InStep

end Edit

namespace LayerEdit

variable {e : Editor} {l : Layer} {g : Geometry} {asked : List LayerKind}

/-- An edit of a layer checks its data and then comes to one change of the editor. -/
theorem exec_run_of_mem (he : e.InStep) (hl : l ∈ e.layers) (hg : e.geometry l.id = .ok g)
    (s : Surroundings) (change : LayerEdit) :
    Edit.exec (change.run s l.id) { editor := e, asked } =
      Edit.settled e asked (change.check >>= fun _ => change.rewrite s l g) := by
  cases change with
  | measure m => exact Edit.exec_setMeasure he hl (g := g) s m
  | text words =>
    rw [run, Edit.changeText_eq]
    exact Edit.exec_changeContent he hl fun _ => Payload.kind_of_mapText?
  | font fontName =>
    rw [run, Edit.changeText_eq]
    exact Edit.exec_changeContent he hl fun _ => Payload.kind_of_mapText?
  | fontSize points =>
    rw [run, Edit.changeText_eq]
    exact Edit.exec_refuseIf_bind
      (Edit.exec_changeContent he hl fun _ => Payload.kind_of_mapText?) _ _
  | textFill fill =>
    rw [run, Edit.changeText_eq]
    exact Edit.exec_changeContent he hl fun _ => Payload.kind_of_mapText?
  | barFill part fill =>
    rw [run, Edit.changeBar_eq]
    exact Edit.exec_changeContent he hl fun _ => Payload.kind_of_mapBar?
  | shapeFill fill =>
    rw [run, Edit.changeShape_eq]
    exact Edit.exec_changeContent he hl fun _ => Payload.kind_of_mapShape?
  | imageSource path => exact Edit.exec_setImageSource he hl hg s path
  | property name value => exact Edit.exec_setProperty he hl hg name value
  | position point => exact Edit.exec_changeGeometry_of_mem he hl hg _
  | size box =>
    rw [run, Edit.setSize, bind_assoc]
    refine Edit.exec_refuseIf_bind ?_ _ _
    rw [bind_assoc, Edit.exec_bind, Edit.exec_layer, Editor.requireLayer, he.layer?_eq hl]
    exact Edit.exec_changeGeometry_of_mem he hl hg _
  | scale factors =>
    rw [run, Edit.setScale, bind_assoc]
    exact Edit.exec_refuseIf_bind (Edit.exec_changeGeometry_of_mem he hl hg _) _ _
  | angle degrees =>
    rw [run, Edit.setAngle, bind_assoc]
    exact Edit.exec_refuseIf_bind (Edit.exec_changeGeometry_of_mem he hl hg _) _ _
  | toggleVisibility => exact Edit.exec_toggleVisibility he hl
  | toggleLock => exact Edit.exec_toggleLock he hl

/-- An edit of an unknown layer changes nothing. -/
theorem exec_run_of_unknown {id : LayerId} (hunknown : e.layer? id = none) (s : Surroundings)
    (change : LayerEdit) :
    Edit.exec (change.run s id) { editor := e, asked } =
      Edit.settled e asked (change.check >>= fun _ => .error (.unknownLayer id)) := by
  have hlayer : e.requireLayer id = .error (.unknownLayer id) := by
    simp [Editor.requireLayer, hunknown]
  have hgeometry : e.geometry id = .error (.unknownLayer id) := by
    simp [Editor.geometry, hlayer]
  have hmove : ∀ f, Edit.exec (Edit.changeGeometry id f >>= fun _ => pure Answer.nothing)
      { editor := e, asked } = Edit.settled e asked (.error (.unknownLayer id)) := by
    intro f
    simp only [Edit.changeGeometry, Edit.exec_bind, Edit.exec_editor, Edit.exec_ofExcept,
      hgeometry]
    rfl
  cases change with
  | measure _ | text _ | font _ | textFill _ | barFill _ _ | shapeFill _ | imageSource _
  | property _ _ | toggleVisibility | toggleLock =>
    simp only [run, Edit.setMeasure, Edit.changeText, Edit.changeBar, Edit.changeShape,
      Edit.setImageSource, Edit.setProperty, Edit.toggleVisibility, Edit.toggleLock,
      Edit.exec_map, Edit.exec_bind, Edit.exec_layer, hlayer]
    rfl
  | position _ => exact hmove _
  | fontSize points =>
    refine Edit.exec_refuseIf_bind ?_ _ _
    simp only [Edit.changeText, Edit.exec_bind, Edit.exec_layer, hlayer]
    rfl
  | size box =>
    rw [run, Edit.setSize, bind_assoc]
    refine Edit.exec_refuseIf_bind ?_ _ _
    simp only [Edit.exec_bind, Edit.exec_layer, hlayer]
    rfl
  | scale factors =>
    rw [run, Edit.setScale, bind_assoc]
    exact Edit.exec_refuseIf_bind (hmove _) _ _
  | angle degrees =>
    rw [run, Edit.setAngle, bind_assoc]
    exact Edit.exec_refuseIf_bind (hmove _) _ _

/-- What an edit does to an editor in step with its canvas. -/
def outcome (s : Surroundings) (e : Editor) (id : LayerId) (change : LayerEdit) :
    Except Fault (Answer × Editor) := do
  change.check
  let l ← e.requireLayer id
  let g ← e.geometry id
  let c ← change.rewrite s l g
  return (c.answer, e.writing c.layer c.placement)

/-- An edit does what its outcome says. -/
theorem exec_run (he : e.InStep) (s : Surroundings) (id : LayerId) (change : LayerEdit) :
    Edit.exec (change.run s id) { editor := e, asked } =
      match change.outcome s e id with
      | .ok (answer, e') => (.ok answer, { editor := e', asked })
      | .error fault => (.error fault, { editor := e, asked }) := by
  cases hfound : e.layer? id with
  | none =>
    rw [exec_run_of_unknown hfound]
    simp only [outcome, Editor.requireLayer, hfound]
    cases change.check <;> rfl
  | some l =>
    obtain ⟨hl, rfl⟩ := Editor.mem_of_layer? hfound
    obtain ⟨g, -, hg⟩ := he.geometry_eq hl
    rw [exec_run_of_mem he hl hg]
    simp only [outcome, Editor.requireLayer, hfound, hg]
    cases change.check with
    | error fault => rfl
    | ok _ =>
      cases hc : change.rewrite s l g <;> simp only [hc, ok_bind, error_bind, Edit.settled]
      rfl

end LayerEdit

end WidgetSkin
