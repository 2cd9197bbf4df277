import WidgetSkin.Proofs.Canvas.Run
import WidgetSkin.Proofs.Editor.OperationRun
import WidgetSkin.Proofs.Editor.Within

/-!
# Calls of editors

An editor changes its canvas by operations of the canvas alone, and its revision grows with what
its listener hears of them. Most edits write no geometry at all, and pieces that write none can
be put together without a look at the editor. The edits of a box write one geometry if they
succeed and none if they fail.

## Main definitions

* `Editor.Calls` — one editor comes from another by operations of the canvas.
* `Edit.Quiet` — an edit that never writes a geometry.
* `Edit.PlacesAt` — an edit that writes one geometry if it succeeds.
* `LayerEdit.places`, `EditorOp.places` — which edits and operations write a geometry.

## Main statements

* `Editor.Calls.revision_eq_of_listener_lt` — the revision counts the geometries written.
* `EditorOp.quiet_run` — operations that are not to write a geometry write none.
* `LayerEdit.placesAt_run` — edits that are to write a geometry write one if they succeed.
-/

namespace WidgetSkin

/-- The operations of a canvas that write no geometry and add no listener. -/
def CanvasOp.isQuiet : CanvasOp → Bool
  | .setGeometry .. | .dragTo .. | .listen => false
  | .add .. | .remove _ | .setPayload .. | .setVisible .. | .setSelectable .. | .restack _
  | .setActive _ => true

theorem Canvas.writes_eq_nil {c : Canvas} {ops : List CanvasOp}
    (hquiet : ∀ op ∈ ops, op.isQuiet = true) : c.writes ops = [] := by
  induction ops generalizing c with
  | nil => rfl
  | cons op ops ih =>
    have hop : c.write? op = none := by
      have hfirst := hquiet op List.mem_cons_self
      cases op <;> first | rfl | cases hfirst
    rw [writes, hop, ih fun op hop => hquiet op (List.mem_cons_of_mem _ hop)]
    rfl

namespace Editor

/-- One editor comes from another by operations of the canvas, and its listener has heard of
them. -/
structure Calls (e : Editor) (ops : List CanvasOp) (e' : Editor) : Prop where
  canvas_eq : e'.canvas = e.canvas.run ops
  listener_eq : e'.listener = e.listener
  revision_eq : e'.revision = e.revision + (e.canvas.heardBy e.listener ops).length

namespace Calls

variable {e e' e'' : Editor} {ops ops' : List CanvasOp}

theorem trans (h : e.Calls ops e') (h' : e'.Calls ops' e'') : e.Calls (ops ++ ops') e'' where
  canvas_eq := by rw [h'.canvas_eq, h.canvas_eq, Canvas.run_append]
  listener_eq := h'.listener_eq.trans h.listener_eq
  revision_eq := by
    rw [h'.revision_eq, h.revision_eq, h.listener_eq, h.canvas_eq, Canvas.heardBy_append,
      List.length_append, Nat.add_assoc]

/-- An editor that leaves its canvas alone. -/
theorem none (hcanvas : e'.canvas = e.canvas) (hlistener : e'.listener = e.listener)
    (hrevision : e'.revision = e.revision) : e.Calls [] e' :=
  ⟨hcanvas, hlistener, hrevision⟩

/-- An editor that does something quiet on its canvas. -/
theorem quiet {op : CanvasOp} (hop : op.isQuiet = true)
    (hcanvas : e'.canvas = (e.canvas.step op).canvas) (hlistener : e'.listener = e.listener)
    (hrevision : e'.revision = e.revision) : e.Calls [op] e' where
  canvas_eq := hcanvas
  listener_eq := hlistener
  revision_eq := by
    have hwrite : e.canvas.write? op = Option.none := by
      cases op <;> first | rfl | cases hop
    rw [Canvas.heardBy_step, hwrite, hrevision]
    split <;> rfl

/-- An editor that hears of an operation. -/
theorem hear (e : Editor) (op : CanvasOp) :
    e.Calls [op] (e.hear ((e.canvas.step op).notices, (e.canvas.step op).canvas)) where
  canvas_eq := rfl
  listener_eq := rfl
  revision_eq := by
    simp [Editor.hear, Canvas.heardBy, Canvas.heard, List.countP_eq_length_filter]

/-- The listener of an editor keeps listening, so it hears of all that is written. -/
theorem revision_eq_of_listener_lt (h : e.Calls ops e')
    (hlistener : e.listener < e.canvas.listeners) :
    e'.revision = e.revision + (e.canvas.writes ops).length := by
  rw [h.revision_eq, Canvas.heardBy_eq_writes hlistener]

theorem listener_lt (h : e.Calls ops e') (hlistener : e.listener < e.canvas.listeners) :
    e'.listener < e'.canvas.listeners := by
  rw [h.listener_eq, h.canvas_eq]
  exact Nat.lt_of_lt_of_le hlistener (e.canvas.listeners_le_run ops)

end Calls

end Editor

/-- The geometry of a layer is that of its object. -/
theorem Editor.geometry_eq_ok_iff {e : Editor} {id : LayerId} {g : Geometry} :
    e.geometry id = .ok g ↔
      ∃ l, e.layer? id = some l ∧ e.canvas.geometry? l.handle = some g := by
  simp only [geometry, requireLayer]
  cases e.layer? id with
  | none => simp
  | some l => cases hg : e.canvas.geometry? l.handle <;> simp [hg]

theorem Editor.layer?_setLayer_eq_none_iff {e : Editor} {l : Layer} {id : LayerId} :
    (e.setLayer l).layer? id = none ↔ e.layer? id = none := by
  have hforall : ∀ layers : List Layer,
      (∀ m ∈ layers, m.id ≠ id) ↔ id ∉ layers.map Layer.id := by simp
  rw [layer?_eq_none_iff, layer?_eq_none_iff, hforall, hforall, map_id_setLayer]

/-! ## Quiet edits -/

namespace Editor

/-- One editor comes from another without any geometry written. -/
def Quiet (e e' : Editor) : Prop :=
  ∃ ops : List CanvasOp, (∀ op ∈ ops, op.isQuiet = true) ∧ e.Calls ops e'

namespace Quiet

variable {e e' : Editor}

instance : Std.Refl Quiet where
  refl _ := ⟨[], List.forall_mem_nil _, .none rfl rfl rfl⟩

instance : IsTrans Editor Quiet where
  trans _ _ _ h h' := by
    obtain ⟨ops, hops, hcalls⟩ := h
    obtain ⟨ops', hops', hcalls'⟩ := h'
    exact ⟨ops ++ ops', List.forall_mem_append.2 ⟨hops, hops'⟩, hcalls.trans hcalls'⟩

/-- An editor that leaves its canvas alone. -/
theorem none (hcanvas : e'.canvas = e.canvas) (hlistener : e'.listener = e.listener)
    (hrevision : e'.revision = e.revision) : e.Quiet e' :=
  ⟨[], List.forall_mem_nil _, .none hcanvas hlistener hrevision⟩

/-- An editor that does something quiet on its canvas. -/
theorem of_step (op : CanvasOp) (hop : op.isQuiet = true)
    (hcanvas : e'.canvas = (e.canvas.step op).canvas) (hlistener : e'.listener = e.listener)
    (hrevision : e'.revision = e.revision) : e.Quiet e' :=
  ⟨[op], List.forall_mem_singleton.2 hop, .quiet hop hcanvas hlistener hrevision⟩

end Quiet

end Editor

namespace Edit

variable {α β : Type}

/-- An edit that writes no geometry, whatever comes of it. -/
abbrev Quiet (m : Edit α) : Prop :=
  Within Editor.Quiet m

theorem quiet_setLayer (l : Layer) : Quiet (Edit.update fun e => e.setLayer l) :=
  .update fun _ => .none rfl rfl rfl

theorem quiet_sync (id : LayerId) : Quiet (Edit.sync id) :=
  .bind (.layer id) fun l =>
    .update fun _ => .of_step (.setPayload l.handle l.payload) rfl rfl rfl rfl

/-- Contents are changed quietly. -/
theorem quiet_changeContent (id : LayerId) (expected : LayerKind) (f : Payload → Option Payload) :
    Quiet (Edit.changeContent id expected f) := by
  refine .bind (.layer id) fun l => ?_
  cases f l.payload with
  | some payload => exact .bind (quiet_setLayer _) fun _ => quiet_sync _
  | none => exact .throw _

theorem quiet_setMeasure (id : LayerId) (measure : String) : Quiet (Edit.setMeasure id measure) :=
  .bind (.layer id) fun _ => .bind (.requireApplicable _ _) fun _ =>
    .bind (quiet_setLayer _) fun _ => quiet_sync id

theorem quiet_toggleVisibility (id : LayerId) : Quiet (Edit.toggleVisibility id) :=
  .bind (.layer id) fun l => .bind (quiet_setLayer _) fun _ =>
    .bind (.update fun _ => .of_step (.setVisible l.handle !l.visible) rfl rfl rfl rfl) fun _ =>
      .pure _

theorem quiet_toggleLock (id : LayerId) : Quiet (Edit.toggleLock id) :=
  .bind (.layer id) fun l => .bind (quiet_setLayer _) fun _ =>
    .bind (.update fun _ => .of_step (.setSelectable l.handle l.locked) rfl rfl rfl rfl) fun _ =>
      .pure _

/-! ## Quiet operations -/

theorem quiet_clearSelection : Quiet Edit.clearSelection :=
  .update fun _ => .of_step (.setActive none) rfl rfl rfl rfl

theorem quiet_select (id : LayerId) : Quiet (Edit.select id) := by
  refine .update fun e => ?_
  cases e.layer? id with
  | none => exact .none rfl rfl rfl
  | some l => exact .of_step (.setActive (some l.handle)) rfl rfl rfl rfl

theorem quiet_insert (payload : Payload) (geometry : Geometry) :
    Quiet (Edit.insert payload geometry) := by
  intro session
  have hadding : session.editor.Quiet (session.editor.adding payload geometry) :=
    .of_step (.add payload.kind geometry payload) rfl rfl rfl rfl
  have hrest : Quiet (Edit.select (session.editor.nextLayer payload).id >>= fun _ =>
      pure (session.editor.nextLayer payload).id) := .bind (quiet_select _) fun _ => .pure _
  rw [WithinAt, exec_insert_eq]
  exact Trans.trans hadding
    (hrest { session with editor := session.editor.adding payload geometry })

theorem quiet_createText (point : Point) (text : String) : Quiet (Edit.createText point text) :=
  .bind .editor fun _ => quiet_insert _ _

theorem quiet_createBar (point : Point) : Quiet (Edit.createBar point) :=
  .bind .editor fun _ => quiet_insert _ _

theorem quiet_createShape (outline : Outline) (point : Point) :
    Quiet (Edit.createShape outline point) :=
  .bind .editor fun _ => quiet_insert _ _

theorem quiet_createImage (s : Surroundings) (point : Point) :
    Quiet (Edit.createImage s point) := by
  refine .bind (.ask s .image) fun source? => ?_
  cases source? with
  | some source => exact .bind (.imageSize s source) fun _ => .map _ (quiet_insert _ _)
  | none => exact .pure _

theorem quiet_needleSource (s : Surroundings) : Quiet (Edit.needleSource s) := by
  refine .bind .editor fun e => ?_
  cases e.config.needleImage with
  | some source => exact .pure _
  | none => exact .ask s .rotator

theorem quiet_createRotator (s : Surroundings) (point : Point) :
    Quiet (Edit.createRotator s point) := by
  refine .bind (quiet_needleSource s) fun source? => ?_
  cases source? with
  | some source =>
    exact .bind (.imageSize s source) fun _ => .bind .editor fun _ => .map _ (quiet_insert _ _)
  | none => exact .pure _

theorem quiet_create (s : Surroundings) (kind : LayerKind) (point : Point) :
    Quiet (Edit.create s kind point) := by
  cases kind with
  | text => exact .bind .editor fun _ => .map _ (quiet_createText _ _)
  | image => exact quiet_createImage s point
  | rotator => exact quiet_createRotator s point
  | bar => exact .map _ (quiet_createBar point)
  | shape => exact .map _ (quiet_createShape _ _)

theorem quiet_place (s : Surroundings) (point : Point) : Quiet (Edit.place s point) := by
  refine .bind .editor fun e => ?_
  cases e.tool.placementKind? with
  | none => exact .pure _
  | some kind =>
    exact .bind (.update fun _ => .none rfl rfl rfl) fun _ => quiet_create s kind point

theorem quiet_delete (id : LayerId) : Quiet (Edit.delete id) := by
  refine .bind .editor fun e => ?_
  cases e.layer? id with
  | none => exact .pure _
  | some l =>
    refine .bind (.update fun _ => .of_step (.remove l.handle) rfl rfl rfl rfl) fun _ => ?_
    dsimp only
    split
    · exact .bind quiet_clearSelection fun _ => .pure _
    · exact .pure _

theorem quiet_restack : Quiet Edit.restack :=
  .update fun e => .of_step (.restack (e.layers.map Layer.handle)) rfl rfl rfl rfl

theorem quiet_reorder (order : List LayerId) : Quiet (Edit.reorder order) :=
  .bind .editor fun _ => .bind (.refuseIf _ _) fun _ => .bind (.ofExcept _) fun _ =>
    .bind (.update fun _ => .none rfl rfl rfl) fun _ => quiet_restack

theorem quiet_move (id : LayerId) (direction : Direction) : Quiet (Edit.move id direction) := by
  refine .bind (.layer id) fun _ => .bind .editor fun _ => ?_
  cases direction <;> dsimp only <;> split
  · exact .bind (.update fun _ => .none rfl rfl rfl) fun _ => quiet_restack
  · exact .pure _
  · exact .bind (.update fun _ => .none rfl rfl rfl) fun _ => quiet_restack
  · exact .pure _

theorem quiet_setBackgroundSize (width height : Float) :
    Quiet (Edit.setBackgroundSize width height) :=
  .bind (.refuseIf _ _) fun _ => .update fun _ => .none rfl rfl rfl

/-! ## Edits that write a geometry -/

/-- An edit that writes so many geometries in a session. -/
def WritesAt (m : Edit α) (session : Session) (n : Nat) : Prop :=
  ∃ ops : List CanvasOp, session.editor.Calls ops (exec m session).2.editor ∧
    (session.editor.canvas.writes ops).length = n

/-- An edit that writes one geometry in a session if it succeeds, and none if it fails. -/
def PlacesAt (m : Edit α) (session : Session) : Prop :=
  WritesAt m session (if (exec m session).1.isOk then 1 else 0)

theorem Quiet.writesAt {m : Edit α} (hm : Quiet m) (session : Session) :
    WritesAt m session 0 := by
  obtain ⟨ops, hops, hcalls⟩ := hm session
  exact ⟨ops, hcalls, by rw [Canvas.writes_eq_nil hops, List.length_nil]⟩

namespace PlacesAt

variable {m : Edit α} {f : α → Edit β} {session : Session}

/-- What comes before a write may fail quietly. -/
theorem quiet_bind (hm : Quiet m)
    (hf : ∀ a session', exec m session = (.ok a, session') → PlacesAt (f a) session') :
    PlacesAt (m >>= f) session := by
  obtain ⟨ops, hops, hcalls⟩ := hm session
  have hnone := session.editor.canvas.writes_eq_nil hops
  unfold PlacesAt WritesAt
  rw [exec_bind]
  rcases hexec : exec m session with ⟨_ | a, session'⟩
  · rw [hexec] at hcalls
    exact ⟨ops, hcalls, by rw [hnone]; rfl⟩
  · rw [hexec] at hcalls
    obtain ⟨ops', hcalls', hwrites⟩ := hf a session' hexec
    refine ⟨ops ++ ops', hcalls.trans hcalls', ?_⟩
    rw [Canvas.writes_append, hnone, List.nil_append, ← hcalls.canvas_eq]
    exact hwrites

/-- What comes after a write has to succeed quietly. -/
theorem bind_quiet (hm : PlacesAt m session) (hf : ∀ a, Quiet (f a))
    (hok : ∀ a session', exec m session = (.ok a, session') →
      (exec (f a) session').1.isOk = true) : PlacesAt (m >>= f) session := by
  obtain ⟨ops, hcalls, hwrites⟩ := hm
  unfold PlacesAt WritesAt
  rw [exec_bind]
  rcases hexec : exec m session with ⟨_ | a, session'⟩
  · rw [hexec] at hcalls hwrites
    exact ⟨ops, hcalls, hwrites⟩
  · rw [hexec] at hcalls hwrites
    obtain ⟨ops', hops', hcalls'⟩ := hf a session'
    refine ⟨ops ++ ops', hcalls.trans hcalls', ?_⟩
    rw [Canvas.writes_append, List.length_append, hwrites, Canvas.writes_eq_nil hops',
      hok a session' hexec]
    rfl

theorem writeGeometry {h : Handle} (hlive : session.editor.canvas.isLive h = true)
    (g : Geometry) : PlacesAt (Edit.writeGeometry h g) session :=
  ⟨[.setGeometry h g], .hear session.editor (.setGeometry h g), by
    simp [Canvas.writes, Canvas.write?, hlive, Edit.writeGeometry, Except.isOk, Except.toBool]⟩

theorem changeGeometry (id : LayerId) (f : Geometry → Geometry) :
    PlacesAt (Edit.changeGeometry id f) session := by
  refine .quiet_bind .editor fun e session₁ h₁ => ?_
  cases h₁
  refine .quiet_bind (.ofExcept _) fun g session₂ h₂ => ?_
  rw [exec_ofExcept] at h₂
  obtain ⟨hg, rfl⟩ := Prod.mk.inj h₂
  refine .quiet_bind (.layer id) fun l session₃ h₃ => ?_
  rw [exec_layer] at h₃
  obtain ⟨hl, rfl⟩ := Prod.mk.inj h₃
  -- The object is there, since its geometry has just been read.
  obtain ⟨l', hl', hgeometry⟩ := Editor.geometry_eq_ok_iff.1 hg
  obtain rfl : l' = l := Option.some.inj (hl'.symm.trans (Editor.requireLayer_eq_ok_iff.1 hl))
  exact .writeGeometry (Canvas.isLive_of_geometry_eq hgeometry) _

/-- A box that is changed after a check. -/
theorem checked (condition : Bool) (cause : Invalid) (id : LayerId) (f : Geometry → Geometry) :
    PlacesAt (Edit.refuseIf condition cause >>= fun _ => Edit.changeGeometry id f) session :=
  .quiet_bind (.refuseIf condition cause) fun _ _ _ => .changeGeometry id f

theorem setSize (id : LayerId) (size : Size) : PlacesAt (Edit.setSize id size) session :=
  .quiet_bind (.refuseIf _ _) fun _ _ _ => .quiet_bind (.layer id) fun _ _ _ =>
    .changeGeometry id _

/-- A layer that is there can be shown. -/
theorem isOk_exec_sync {id : LayerId} (hfound : (session.editor.layer? id).isSome = true) :
    (exec (Edit.sync id) session).1.isOk = true := by
  obtain ⟨l, hl⟩ := Option.isSome_iff_exists.1 hfound
  rw [exec_sync hl]
  rfl

/-- A layer that was changed is there to be shown. -/
theorem changeGeometry_sync (id : LayerId) (f : Geometry → Geometry) :
    PlacesAt (Edit.changeGeometry id f >>= fun _ => Edit.sync id) session := by
  refine .bind_quiet (.changeGeometry id f) (fun _ => quiet_sync id) fun _ session' h => ?_
  cases hg : session.editor.geometry id with
  | error fault => simp [Edit.changeGeometry, hg] at h
  | ok g =>
    obtain ⟨l, hl, -⟩ := Editor.geometry_eq_ok_iff.1 hg
    rw [exec_changeGeometry hl hg] at h
    obtain ⟨-, rfl⟩ := Prod.mk.inj h
    exact isOk_exec_sync (Option.isSome_iff_exists.2 ⟨l, hl⟩)

/-- A needle is turned on the canvas if its start angle is set. -/
theorem setProperty_startAngle (id : LayerId) (value : String) :
    PlacesAt (Edit.setProperty id Needle.Property.startAngle.label value) session := by
  refine .quiet_bind (.layer id) fun l _ _ => ?_
  cases l.payload with
  | rotator n =>
    exact .quiet_bind (.ofExcept _) fun _ _ _ => .quiet_bind (quiet_setLayer _) fun _ _ _ =>
      .changeGeometry_sync id _
  | text _ | image _ | bar _ | shape _ =>
    exact ⟨[], .none rfl rfl rfl, rfl⟩

/-- An image that is measured anew has its box written, as its object lies on the canvas. -/
theorem setImageSource (s : Surroundings) (id : LayerId) (path : String)
    (hlive : ∀ l ∈ session.editor.layers, session.editor.canvas.isLive l.handle = true) :
    PlacesAt (Edit.setImageSource s id path) session := by
  refine .quiet_bind (.layer id) fun l session₁ h₁ => ?_
  rw [exec_layer] at h₁
  obtain ⟨hl, rfl⟩ := Prod.mk.inj h₁
  refine .quiet_bind (.refuseIf _ _) fun _ session₂ h₂ => ?_
  rw [exec_refuseIf] at h₂
  obtain ⟨-, rfl⟩ := Prod.mk.inj h₂
  refine .quiet_bind (.imageSize s path) fun size session₃ h₃ => ?_
  rw [exec_imageSize] at h₃
  obtain ⟨-, rfl⟩ := Prod.mk.inj h₃
  have hfound := Editor.requireLayer_eq_ok_iff.1 hl
  have hobject := hlive l (Editor.mem_of_layer? hfound).1
  obtain ⟨g, hg⟩ := Canvas.isLive_iff_geometry?.1 hobject
  refine .quiet_bind (quiet_setLayer _) fun _ session₄ h₄ => ?_
  cases h₄
  refine .quiet_bind .editor fun e session₅ h₅ => ?_
  cases h₅
  rw [show (session.editor.setLayer _).canvas = session.editor.canvas from rfl, hg]
  refine .bind_quiet ?_ (fun _ => quiet_sync id) fun _ session₆ h₆ => ?_
  · refine .writeGeometry ?_ _
    exact hobject
  · cases h₆
    refine isOk_exec_sync (Option.isSome_iff_ne_none.2 fun hnone => ?_)
    have hmissing := Editor.layer?_setLayer_eq_none_iff.1 hnone
    simp [hfound] at hmissing

end PlacesAt

end Edit

/-! ## Edits of a layer and operations -/

namespace LayerEdit

/-- The edits that write a geometry. -/
def places : LayerEdit → Bool
  | .position _ | .size _ | .scale _ | .angle _ | .imageSource _ => true
  | .property name _ => name = Needle.Property.startAngle.label
  | .measure _ | .text _ | .font _ | .fontSize _ | .textFill _ | .barFill .. | .shapeFill _
  | .toggleVisibility | .toggleLock => false

/-- Edits that are not to write a geometry write none. -/
theorem quiet_run {change : LayerEdit} (hquiet : change.places = false) (s : Surroundings)
    (id : LayerId) : Edit.Quiet (change.run s id) := by
  cases change with
  | measure m => exact .bind (Edit.quiet_setMeasure id m) fun _ => .pure _
  | text _ | font _ | textFill _ =>
    rw [run, Edit.changeText_eq]
    exact .bind (Edit.quiet_changeContent id _ _) fun _ => .pure _
  | fontSize _ =>
    rw [run, Edit.changeText_eq]
    exact .bind (.refuseIf _ _) fun _ => .bind (Edit.quiet_changeContent id _ _) fun _ => .pure _
  | barFill _ _ =>
    rw [run, Edit.changeBar_eq]
    exact .bind (Edit.quiet_changeContent id _ _) fun _ => .pure _
  | shapeFill _ =>
    rw [run, Edit.changeShape_eq]
    exact .bind (Edit.quiet_changeContent id _ _) fun _ => .pure _
  | property name value =>
    have hname : name ≠ Needle.Property.startAngle.label := by simpa [places] using hquiet
    refine .bind (.bind (.layer id) fun l => ?_) fun _ => .pure _
    cases l.payload with
    | rotator n =>
      refine .bind (.ofExcept _) fun _ => .bind (Edit.quiet_setLayer _) fun _ => ?_
      rw [if_neg hname]
      exact Edit.quiet_sync id
    | text _ | image _ | bar _ | shape _ => exact .throw _
  | toggleVisibility => exact .map _ (Edit.quiet_toggleVisibility id)
  | toggleLock => exact .map _ (Edit.quiet_toggleLock id)
  | position _ | size _ | scale _ | angle _ | imageSource _ => cases hquiet

/-- Edits that are to write a geometry write one if they succeed, and none if they fail. -/
theorem placesAt_run {change : LayerEdit} (hplaces : change.places = true) (session : Session)
    (hlive : ∀ l ∈ session.editor.layers, session.editor.canvas.isLive l.handle = true)
    (s : Surroundings) (id : LayerId) : Edit.PlacesAt (change.run s id) session := by
  have hnothing : ∀ {m : Edit Unit}, m.PlacesAt session →
      Edit.PlacesAt (m >>= fun _ => pure Answer.nothing) session := fun hm =>
    .bind_quiet hm (fun _ => .pure _) fun _ _ _ => rfl
  cases change with
  | position _ => exact hnothing (.changeGeometry id _)
  | size size => exact hnothing (.setSize id size)
  | scale _ | angle _ => exact hnothing (.checked _ _ id _)
  | imageSource path => exact hnothing (.setImageSource s id path hlive)
  | property name value =>
    obtain rfl : name = Needle.Property.startAngle.label := by simpa [places] using hplaces
    exact hnothing (.setProperty_startAngle id value)
  | measure _ | text _ | font _ | fontSize _ | textFill _ | barFill _ _ | shapeFill _
  | toggleVisibility | toggleLock => cases hplaces

end LayerEdit

namespace EditorOp

/-- The operations that write a geometry. -/
def places : EditorOp → Bool
  | .edit _ change => change.places
  | .createText .. | .createBar _ | .createShape .. | .createImage _ | .createRotator _
  | .create .. | .place _ | .setTool _ | .delete _ | .reorder _ | .move .. | .select _
  | .clearSelection | .setBackgroundPosition _ | .setBackgroundSize .. | .setBackdropColor _ =>
    false

/-- Operations that are not to write a geometry write none. -/
theorem quiet_run {op : EditorOp} (hquiet : op.places = false) (s : Surroundings) :
    Edit.Quiet (op.run s) := by
  cases op with
  | createText point words => exact .bind (Edit.quiet_createText point words) fun _ => .pure _
  | createBar point => exact .bind (Edit.quiet_createBar point) fun _ => .pure _
  | createShape outline point => exact .bind (Edit.quiet_createShape outline point) fun _ => .pure _
  | createImage point => exact .map _ (Edit.quiet_createImage s point)
  | createRotator point => exact .map _ (Edit.quiet_createRotator s point)
  | create kind point => exact .map _ (Edit.quiet_create s kind point)
  | place point => exact .map _ (Edit.quiet_place s point)
  | delete id => exact .map _ (Edit.quiet_delete id)
  | reorder order => exact .bind (Edit.quiet_reorder order) fun _ => .pure _
  | move id direction => exact .bind (Edit.quiet_move id direction) fun _ => .pure _
  | select id => exact .bind (Edit.quiet_select id) fun _ => .pure _
  | clearSelection => exact .bind Edit.quiet_clearSelection fun _ => .pure _
  | edit id change => exact LayerEdit.quiet_run hquiet s id
  | setBackgroundSize width height =>
    exact .bind (Edit.quiet_setBackgroundSize width height) fun _ => .pure _
  | setTool _ | setBackgroundPosition _ | setBackdropColor _ =>
    exact .bind (.update fun _ => .none rfl rfl rfl) fun _ => .pure _

end EditorOp

end WidgetSkin
