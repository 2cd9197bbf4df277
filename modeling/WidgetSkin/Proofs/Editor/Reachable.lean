import WidgetSkin.Proofs.Editor.OperationRun

/-!
# Reachable editors

The states of an editor that starts on an empty canvas: after any operations, with any files and
answers of the user, and with objects dragged on the canvas in between.

## Main definitions

* `Editor.Reachable` — the states of an editor.

## Main statements

* `Editor.InStep.step`, `Editor.InStep.drag` — one step keeps editor and canvas in step.
* `Editor.Reachable.inStep` — so does every run.
* `Editor.Reachable.agreement` — what layers and objects have in common.
* `Editor.Reachable.editor_eq_of_failed` — operations that fail leave the editor as it was.
-/

namespace WidgetSkin

/-- A user who picks no file. -/
def Surroundings.silent : Surroundings where
  pick _ := .ok none
  imageSize? _ := none

namespace Editor

/-- The states of an editor that starts on an empty canvas. -/
inductive Reachable (config : EditorConfig) : Editor → Prop where
  | new : Reachable config (Editor.new config)
  | step {e : Editor} (s : Surroundings) (op : EditorOp) :
    Reachable config e → Reachable config (e.step s op).editor
  | drag {e : Editor} (h : Handle) (point : Point) :
    Reachable config e → Reachable config (e.observe (.drag h point))

/-! ## One step -/

namespace InStep

variable {e e' : Editor} {s : Surroundings} {answer : Answer}

theorem created (he : e.InStep) (new? : Option Creation) : (e.created new?).2.InStep := by
  cases new? with
  | none => exact he
  | some new => exact he.inserting new.payload new.geometry

theorem of_created (he : e.InStep) {r : Except Fault (Option Creation)}
    (h : e.created <$> r = .ok (answer, e')) : e'.InStep := by
  obtain ⟨new?, -, hnew⟩ := map_eq_ok_iff.1 h
  have hcreated := he.created new?
  rwa [hnew] at hcreated

theorem of_layerEdit (he : e.InStep) {id : LayerId} {change : LayerEdit}
    (h : change.outcome s e id = .ok (answer, e')) : e'.InStep := by
  obtain ⟨_, -, h⟩ := bind_eq_ok_iff.1 h
  obtain ⟨l, hl, h⟩ := bind_eq_ok_iff.1 h
  obtain ⟨g, -, h⟩ := bind_eq_ok_iff.1 h
  obtain ⟨c, hc, h⟩ := bind_eq_ok_iff.1 h
  cases h
  have hmem := (mem_of_layer? (requireLayer_eq_ok_iff.1 hl)).1
  have hkeeps := LayerEdit.rewrite_keeps hc
  exact he.writing hmem hkeeps.id_eq hkeeps.handle_eq c.placement

/-- Operations that succeed keep editor and canvas in step. -/
theorem of_outcome (he : e.InStep) {op : EditorOp}
    (h : op.outcome s e = .ok (answer, e')) : e'.InStep := by
  cases op with
  | createText point words =>
    cases h
    exact he.inserting _ _
  | createBar point =>
    cases h
    exact he.inserting _ _
  | createShape outline point =>
    cases h
    exact he.inserting _ _
  | createImage point => exact he.of_created h
  | createRotator point => exact he.of_created h
  | create kind point => exact he.of_created h
  | place point =>
    simp only [EditorOp.outcome] at h
    split at h
    · have hselect : Editor.InStep { e with tool := .select } := { he with }
      exact hselect.of_created h
    · cases h
      exact he
  | delete id =>
    simp only [EditorOp.outcome] at h
    split at h
    · next hfound =>
      cases h
      exact he.without (mem_of_layer? hfound).1
    · cases h
      exact he
  | reorder order =>
    by_cases hperm : order.Perm e.order
    · rw [EditorOp.outcome_reorder_of_perm he hperm] at h
      cases h
      exact he.arranged hperm
    · obtain ⟨fault, hrefused⟩ := EditorOp.outcome_reorder_of_not_perm he hperm s
      rw [hrefused] at h
      cases h
  | move id direction =>
    obtain ⟨l, -, h⟩ := bind_eq_ok_iff.1 h
    cases h
    exact he.ordered (e.moved_perm id direction)
  | select id =>
    simp only [EditorOp.outcome] at h
    split at h
    · next l hfound =>
      cases h
      refine he.selecting fun m hm => ?_
      rw [← Option.some.inj hm]
      exact (mem_of_layer? hfound).1
    · cases h
      exact he
  | clearSelection =>
    cases h
    exact he.selecting (by simp)
  | edit id change => exact he.of_layerEdit h
  | setBackgroundSize width height =>
    simp only [EditorOp.outcome] at h
    split at h
    · cases h
    · cases h
      exact { he with }
  | setTool _ | setBackgroundPosition _ | setBackdropColor _ =>
    cases h
    exact { he with }

theorem failed (he : e.InStep) (op : EditorOp) : (op.failed e).InStep := by
  cases op <;> exact { he with }

/-- Every operation keeps editor and canvas in step, whatever comes of it. -/
theorem step (he : e.InStep) (s : Surroundings) (op : EditorOp) : (e.step s op).editor.InStep := by
  cases houtcome : op.outcome s e with
  | error fault =>
    rw [Editor.step_of_error he houtcome]
    exact he.failed op
  | ok result =>
    rw [Editor.step_of_ok he houtcome]
    exact he.of_outcome houtcome

/-- An operation fails for want of an object only if the user's picker says so. -/
theorem step_eq_noObject (he : e.InStep) {op : EditorOp} {id : LayerId}
    (h : (e.step s op).result = .error (.invalid (.noObject id))) :
    ∃ kind, s.pick kind = .error (.invalid (.noObject id)) := by
  cases houtcome : op.outcome s e with
  | ok result =>
    rw [Editor.step_of_ok he houtcome] at h
    cases h
  | error fault =>
    rw [Editor.step_of_error he houtcome] at h
    cases h
    exact EditorOp.outcome_eq_noObject he houtcome

/-- An object that the user drags is given another position. -/
theorem observe_drag_of_mem (he : e.InStep) {l : Layer} (hl : l ∈ e.layers) {g : Geometry}
    (hg : e.geometry l.id = .ok g) (point : Point) :
    e.observe (.drag l.handle point) = e.writing l (some { g with position := point }) := by
  have hgeometry : e.canvas.geometry? l.handle = some g :=
    Canvas.geometry?_of_object? (he.object?_of_geometry hl hg)
  rw [observe, Canvas.dragTo, hgeometry]
  exact he.hear_setGeometry hl _

theorem observe_drag_of_not_mem {h : Handle} (hh : h ∉ e.canvas.handles) (point : Point) :
    e.observe (.drag h point) = e := by
  rw [observe, Canvas.dragTo, Canvas.geometry?_of_not_mem hh]
  rfl

/-- The user cannot drag editor and canvas apart. -/
theorem drag (he : e.InStep) (h : Handle) (point : Point) :
    (e.observe (.drag h point)).InStep := by
  by_cases hh : h ∈ e.canvas.handles
  · obtain ⟨l, hl, rfl⟩ := he.exists_layer_of_mem_handles hh
    obtain ⟨g, -, hg⟩ := he.geometry_eq hl
    rw [he.observe_drag_of_mem hl hg]
    exact he.writing hl rfl rfl _
  · rwa [observe_drag_of_not_mem hh]

end InStep

/-! ## Every run -/

namespace Reachable

variable {config : EditorConfig} {e : Editor}

/-- Editor and canvas never drift apart. -/
theorem inStep (h : Reachable config e) : e.InStep := by
  induction h with
  | new => exact .new config
  | step s op _ ih => exact ih.step s op
  | drag h point _ ih => exact ih.drag h point

/-- What the layers of an editor and the objects on its canvas have in common, in every state:
each layer has one object of its own and there are no others; they lie in the order of the
layers; the active object is that of the selected layer; and every object shows its layer. So
the geometry of a layer is always found, and no operation fails for want of an object. -/
theorem agreement (h : Reachable config e) :
    (e.layers.map Layer.handle).Nodup ∧
    (∀ k, e.canvas.isLive k = true ↔ ∃ l ∈ e.layers, l.handle = k) ∧
    (e.canvas.objects.map Prod.fst).Perm (e.layers.map Layer.handle) ∧
    e.canvas.stacking = e.layers.map Layer.handle ∧
    e.canvas.active = (e.selected.bind e.layer?).map Layer.handle ∧
    (e.canvas.active = none ↔ e.selected = none) ∧
    (∀ id, e.selected = some id → ∃ l ∈ e.layers, l.id = id) ∧
    (∀ l ∈ e.layers, ∃ o, e.canvas.object? l.handle = some o ∧ o.kind = l.kind ∧
      o.payload = l.payload ∧ o.visible = l.visible ∧ o.selectable = !l.locked) ∧
    (∀ l ∈ e.layers, ∃ g, e.geometry l.id = .ok g) ∧
    ∀ s op id, (e.step s op).result = .error (.invalid (.noObject id)) →
      ∃ kind, s.pick kind = .error (.invalid (.noObject id)) := by
  have he := h.inStep
  have hgeometry : ∀ l ∈ e.layers, ∃ g, e.geometry l.id = .ok g := by
    intro l hl
    obtain ⟨g, -, hg⟩ := he.geometry_eq hl
    exact ⟨g, hg⟩
  exact ⟨he.handles_nodup, fun _ => he.isLive_iff, he.handles_perm, he.stacking_eq, he.active_eq,
    he.active_eq_none_iff, fun _ => he.exists_layer_of_selected, fun _ => he.exists_object,
    hgeometry, fun _ _ _ => he.step_eq_noObject⟩

/-- A bar that was dragged still agrees with its object. -/
theorem agreement_of_dragged_bar :
    let e := ((Editor.new {}).step .silent (.createBar ⟨10, 20⟩)).editor.observe
      (.drag ⟨1⟩ ⟨30, 40⟩)
    e.layers.map Layer.name = ["Bar1"] ∧ e.canvas.stacking = e.layers.map Layer.handle ∧
      ∀ l ∈ e.layers, ∃ g, e.geometry l.id = .ok g := by
  intro e
  obtain ⟨-, -, -, hstacking, -, -, -, -, hgeometry, -⟩ :=
    agreement (.drag ⟨1⟩ ⟨30, 40⟩ (.step .silent (.createBar ⟨10, 20⟩) .new) : Reachable {} e)
  exact ⟨by decide +kernel, hstacking, hgeometry⟩

/-- An operation that fails, or that creates nothing because the user gave up, leaves the whole
state as it was. Only a click with a placing tool has used the tool up. -/
theorem editor_eq_of_failed (h : Reachable config e) (s : Surroundings) (op : EditorOp)
    (hfailed : (∃ fault, (e.step s op).result = .error fault) ∨
      (e.step s op).result = .ok (.created none)) :
    (e.step s op).editor = e ∨
      ∃ point kind, op = .place point ∧ e.tool.placementKind? = some kind ∧
        (e.step s op).editor = { e with tool := .select } := by
  cases houtcome : op.outcome s e with
  | error fault =>
    rw [Editor.step_of_error h.inStep houtcome]
    exact EditorOp.failed_eq houtcome
  | ok result =>
    obtain ⟨answer, e'⟩ := result
    rw [Editor.step_of_ok h.inStep houtcome] at hfailed ⊢
    rcases hfailed with ⟨fault, hfault⟩ | hcreated
    · cases hfault
    · cases hcreated
      exact EditorOp.eq_of_outcome_eq_created_none houtcome

/-- Beside a bar, a text is refused a measure for bars, and everything stays as it was. A click of
which nothing comes uses the tool up, and no more. -/
theorem editor_eq_of_refused_measure :
    let e := ((((Editor.new {}).step .silent (.createBar ⟨10, 20⟩)).editor.step .silent
      (.createText ⟨30, 40⟩ "Load")).editor.step .silent (.setTool .image)).editor
    e.layers.map Layer.name = ["Bar1", "Text1"] ∧
    (e.step .silent (.edit ⟨2⟩ (.measure "bar-cpu"))).result =
      .error (.measure (.notApplicable "bar-cpu" .text)) ∧
    (e.step .silent (.edit ⟨2⟩ (.measure "bar-cpu"))).editor = e ∧
    (e.step .silent (.place ⟨50, 60⟩)).result = .ok (.created none) ∧
    (e.step .silent (.place ⟨50, 60⟩)).editor = { e with tool := .select } := by
  intro e
  have he : Reachable {} e := .step _ _ (.step _ _ (.step _ _ .new))
  have hrefused : (e.step .silent (.edit ⟨2⟩ (.measure "bar-cpu"))).result =
      .error (.measure (.notApplicable "bar-cpu" .text)) := by
    decide +kernel
  have hcancelled : (e.step .silent (.place ⟨50, 60⟩)).result = .ok (.created none) := by
    decide +kernel
  refine ⟨by decide +kernel, hrefused, ?_, hcancelled, ?_⟩
  · rcases editor_eq_of_failed he _ _ (.inl ⟨_, hrefused⟩) with hsame | ⟨_, _, hplace, -⟩
    · exact hsame
    · cases hplace
  · rcases editor_eq_of_failed he _ _ (.inr hcancelled) with hsame | ⟨_, _, -, -, hselect⟩
    · have htool : (e.step .silent (.place ⟨50, 60⟩)).editor.tool = .select := by decide +kernel
      rw [hsame] at htool
      cases htool
    · exact hselect

end Reachable

end Editor

end WidgetSkin
