import WidgetSkin.Proofs.Editor.Outcome

/-!
# Runs of operations

Operations write layers, canvas and selection one after another. On an editor in step with its
canvas, they do what their outcomes say.

## Main statements

* `Edit.exec_create`, `Edit.exec_delete`, `Edit.exec_reorder`, … — the operations one by one.
* `Editor.step_of_creating?` — what an operation leads to that creates layers.
* `Editor.step_of_ok`, `Editor.step_of_error` — an operation does what its outcome says.
-/

namespace WidgetSkin

namespace Edit

theorem exec_select {session : Session} {l : Layer}
    (h : session.editor.layer? l.id = some l) :
    exec (select l.id) session =
      (.ok (), { session with editor := session.editor.selecting (some l) }) := by
  rw [select, exec_update, h]
  rfl

theorem exec_clearSelection (session : Session) :
    exec clearSelection session =
      (.ok (), { session with editor := session.editor.selecting none }) := rfl

/-- A new layer is put on top and then selected. -/
theorem exec_insert_eq (session : Session) (payload : Payload) (geometry : Geometry) :
    exec (insert payload geometry) session =
      exec (select (session.editor.nextLayer payload).id >>= fun _ =>
          pure (session.editor.nextLayer payload).id)
        { session with editor := session.editor.adding payload geometry } := by
  rw [insert, exec_bind, exec_editor]
  dsimp only
  rw [exec_bind, exec_update]
  rfl

/-- The session after an operation; `failed` is the editor if it failed. -/
def arrived (failed : Editor) (asked : List LayerKind) :
    Except Fault (Answer × Editor) → Except Fault Answer × Session
  | .ok (answer, e') => (.ok answer, { editor := e', asked })
  | .error fault => (.error fault, { editor := failed, asked })

theorem exec_needleSource {e : Editor} {asked : List LayerKind} (s : Surroundings) :
    exec (needleSource s) { editor := e, asked } =
      (e.config.needle s, { editor := e, asked := asked ++ e.config.asks .rotator }) := by
  rw [needleSource, exec_bind, exec_editor, EditorConfig.needle, EditorConfig.asks]
  cases hneedle : e.config.needleImage with
  | some source => simp [hneedle]
  | none => simp [hneedle]

/-! ## New layers -/

section Fresh

variable {e : Editor} {asked : List LayerKind} (hfresh : ∀ l ∈ e.layers, l.id.val ≤ e.lastId)

include hfresh

/-- The editor after a new layer was made, if its identifier is new. -/
theorem exec_insert (payload : Payload) (geometry : Geometry) :
    exec (insert payload geometry) { editor := e, asked } =
      (.ok (e.nextLayer payload).id, { editor := e.inserting payload geometry, asked }) := by
  have hfound : (e.adding payload geometry).layer? (e.nextLayer payload).id =
      some (e.nextLayer payload) := by
    have hnone : e.layer? (e.nextLayer payload).id = none := by
      refine Editor.layer?_eq_none_iff.2 fun l hl heq => ?_
      have hle := hfresh l hl
      simp only [heq, Editor.nextLayer] at hle
      omega
    rw [Editor.layer?] at hnone
    simp [Editor.layer?, Editor.adding, List.find?_append, hnone]
  rw [exec_insert_eq, exec_bind, exec_select hfound]
  rfl

theorem exec_createText (point : Point) (words : String) :
    exec (createText point words) { editor := e, asked } =
      (.ok (e.nextLayer (e.config.text point words).payload).id,
        { editor := (e.created (some (e.config.text point words))).2, asked }) := by
  rw [createText, exec_bind, exec_editor]
  exact exec_insert hfresh _ _

theorem exec_createBar (point : Point) :
    exec (createBar point) { editor := e, asked } =
      (.ok (e.nextLayer (e.config.bar point).payload).id,
        { editor := (e.created (some (e.config.bar point))).2, asked }) := by
  rw [createBar, exec_bind, exec_editor]
  exact exec_insert hfresh _ _

theorem exec_createShape (outline : Outline) (point : Point) :
    exec (createShape outline point) { editor := e, asked } =
      (.ok (e.nextLayer (e.config.shape outline point).payload).id,
        { editor := (e.created (some (e.config.shape outline point))).2, asked }) := by
  rw [createShape, exec_bind, exec_editor]
  exact exec_insert hfresh _ _

theorem exec_createImage (s : Surroundings) (point : Point) :
    exec (Answer.created <$> createImage s point) { editor := e, asked } =
      arrived e (asked ++ e.config.asks .image) (e.created <$> EditorConfig.image s point) := by
  rw [exec_map, createImage, exec_bind, exec_ask, EditorConfig.image]
  cases s.pick .image with
  | error fault => rfl
  | ok source? =>
    cases source? with
    | none => rfl
    | some source =>
      rw [ok_bind]
      dsimp only
      rw [exec_bind, exec_imageSize]
      cases s.imageSize source with
      | error fault => rfl
      | ok size =>
        dsimp only
        rw [exec_map, exec_insert hfresh]
        rfl

theorem exec_createRotator (s : Surroundings) (point : Point) :
    exec (Answer.created <$> createRotator s point) { editor := e, asked } =
      arrived e (asked ++ e.config.asks .rotator) (e.created <$> e.config.rotator s point) := by
  rw [exec_map, createRotator, exec_bind, exec_needleSource, EditorConfig.rotator]
  cases e.config.needle s with
  | error fault => rfl
  | ok source? =>
    cases source? with
    | none => rfl
    | some source =>
      rw [ok_bind]
      dsimp only
      rw [exec_bind, exec_imageSize]
      cases s.imageSize source with
      | error fault => rfl
      | ok size =>
        dsimp only
        rw [exec_bind, exec_editor]
        dsimp only
        rw [exec_map, exec_insert hfresh]
        rfl

theorem exec_create (s : Surroundings) (kind : LayerKind) (point : Point) :
    exec (Answer.created <$> create s kind point) { editor := e, asked } =
      arrived e (asked ++ e.config.asks kind)
        (e.created <$> e.config.creation s point kind) := by
  cases kind with
  | text =>
    rw [exec_map, create, exec_bind, exec_editor]
    dsimp only
    rw [exec_map, exec_createText hfresh, EditorConfig.asks, List.append_nil]
    rfl
  | image => exact exec_createImage hfresh s point
  | rotator => exact exec_createRotator hfresh s point
  | bar =>
    rw [exec_map, create, exec_map, exec_createBar hfresh, EditorConfig.asks, List.append_nil]
    rfl
  | shape =>
    rw [exec_map, create, exec_map, exec_createShape hfresh, EditorConfig.asks, List.append_nil]
    rfl

/-- A click uses the tool up before it places a layer. -/
theorem exec_place (s : Surroundings) (point : Point) :
    exec (Answer.created <$> place s point) { editor := e } =
      arrived { e with tool := .select } ((EditorOp.place point).asks e)
        ((EditorOp.place point).outcome s e) := by
  rw [exec_map, place, exec_bind, exec_editor, EditorOp.outcome, EditorOp.asks]
  cases hkind : e.tool.placementKind? with
  | none =>
    simp only [hkind]
    rfl
  | some kind =>
    -- The layer is made by an editor whose tool is already put back.
    have hcreate := @exec_create { e with tool := .select } [] hfresh s kind point
    simp only [hkind, exec_bind, exec_update]
    rw [exec_map] at hcreate
    exact hcreate

end Fresh

/-! ## Other operations -/

section InStep

variable {e : Editor} {asked : List LayerKind}

/-- Nothing is left to deselect once the selected layer is gone. -/
theorem selecting_none_without (he : e.InStep) {l : Layer} (hl : l ∈ e.layers)
    (hselected : e.selected = some l.id) : (e.without l).selecting none = e.without l := by
  have hactive : e.canvas.active = some l.handle := by
    rw [he.active_eq, hselected, Option.bind_some, he.layer?_eq hl]
    rfl
  have hcanvas : (e.canvas.remove l.handle).2.setActive none = (e.canvas.remove l.handle).2 := by
    rw [Canvas.remove_of_mem (he.handle_mem hl)]
    simp [Canvas.setActive, hactive, Option.filter]
  simp [Editor.selecting, Editor.without, hselected, hcanvas, Option.filter]

theorem exec_delete (he : e.InStep) (s : Surroundings) (id : LayerId) :
    exec (Answer.flag <$> delete id) { editor := e, asked } =
      arrived e asked ((EditorOp.delete id).outcome s e) := by
  rw [exec_map, delete, exec_bind, exec_editor, EditorOp.outcome]
  cases hfound : e.layer? id with
  | none =>
    dsimp only
    rw [hfound]
    rfl
  | some l =>
    obtain ⟨hl, rfl⟩ := Editor.mem_of_layer? hfound
    simp only [hfound, exec_bind, exec_update]
    by_cases hselected : e.selected = some l.id
    · rw [if_pos hselected, exec_bind, exec_clearSelection]
      have hwithout := selecting_none_without he hl hselected
      simp only [exec_pure, arrived]
      rw [← hwithout]
      rfl
    · have hkept : e.selected.filter (· ≠ l.id) = e.selected := by
        cases hid : e.selected with
        | none => rfl
        | some id =>
          refine Option.filter_some_pos ?_
          simpa [hid] using hselected
      rw [if_neg hselected]
      simp only [exec_pure, arrived, Editor.without, hkept]
      rfl

theorem exec_reorder (he : e.InStep) (s : Surroundings) (order : List LayerId) :
    exec (reorder order >>= fun _ => pure Answer.nothing) { editor := e, asked } =
      arrived e asked ((EditorOp.reorder order).outcome s e) := by
  rw [exec_bind, reorder, exec_bind, exec_editor, EditorOp.outcome]
  dsimp only
  rw [exec_bind, exec_refuseIf]
  by_cases hlength : order.length = e.layers.length
  · simp only [hlength, bne_self_eq_false, Bool.false_eq_true, if_false, if_true, exec_bind,
      exec_ofExcept]
    cases hdistinct : Edit.requireDistinct e [] order with
    | error fault => rfl
    | ok _ =>
      have hdrawn : drawFrom e.layers order = order.filterMap e.layer? :=
        drawFrom_eq he.ids_nodup (Edit.requireDistinct_eq_ok_iff.1 hdistinct).1
      simp only [exec_update, restack, hdrawn]
      rfl
  · have hrefused : (order.length != e.layers.length) = true := bne_iff_ne.2 hlength
    rw [if_neg hlength, if_pos hrefused]
    rfl

/-- Layers are exchanged and stacked if there is a neighbour. -/
theorem exec_exchange (he : e.InStep) (condition : Prop) [Decidable condition]
    (f : List Layer → List Layer) :
    exec (if condition then update (fun e => { e with layers := f e.layers }) >>= fun _ => restack
        else pure ()) { editor := e, asked } =
      (.ok (), { editor := e.ordered (if condition then f e.layers else e.layers), asked }) := by
  split
  · rfl
  · rw [Editor.ordered_self he]
    rfl

theorem exec_move (he : e.InStep) (s : Surroundings) (id : LayerId) (direction : Direction) :
    exec (move id direction >>= fun _ => pure Answer.nothing) { editor := e, asked } =
      arrived e asked ((EditorOp.move id direction).outcome s e) := by
  rw [exec_bind, move, exec_bind, exec_layer, EditorOp.outcome]
  cases hlayer : e.requireLayer id with
  | error fault => rfl
  | ok l =>
    dsimp only
    rw [exec_bind, exec_editor]
    cases direction with
    | up =>
      dsimp only
      rw [exec_exchange he]
      rfl
    | down =>
      dsimp only
      rw [exec_exchange he]
      rfl

end InStep

end Edit

/-- An operation that creates layers does what its outcome says, if identifiers that will be
given are new. -/
theorem EditorOp.exec_run_of_creating? {e : Editor}
    (hfresh : ∀ l ∈ e.layers, l.id.val ≤ e.lastId) {s : Surroundings} {op : EditorOp}
    {r : Except Fault (Option Creation)} (h : op.creating? s e = some r) :
    Edit.exec (op.run s) { editor := e } =
      Edit.arrived (op.failed e) (op.asks e) (op.outcome s e) := by
  cases op with
  | createText point words =>
    rw [run, Edit.exec_bind, Edit.exec_createText hfresh]
    rfl
  | createBar point =>
    rw [run, Edit.exec_bind, Edit.exec_createBar hfresh]
    rfl
  | createShape outline point =>
    rw [run, Edit.exec_bind, Edit.exec_createShape hfresh]
    rfl
  | createImage point => exact Edit.exec_createImage hfresh s point
  | createRotator point => exact Edit.exec_createRotator hfresh s point
  | create kind point => exact Edit.exec_create hfresh s kind point
  | place point => exact Edit.exec_place hfresh s point
  | setTool _ | delete _ | reorder _ | move _ _ | select _ | clearSelection | edit _ _
  | setBackgroundPosition _ | setBackgroundSize _ _ | setBackdropColor _ => cases h

/-- An operation does what its outcome says. -/
theorem EditorOp.exec_run {e : Editor} (he : e.InStep) (s : Surroundings) (op : EditorOp) :
    Edit.exec (op.run s) { editor := e } =
      Edit.arrived (op.failed e) (op.asks e) (op.outcome s e) := by
  cases op with
  | createText _ _ | createBar _ | createShape _ _ | createImage _ | createRotator _
  | create _ _ | place _ => exact exec_run_of_creating? he.id_le_lastId rfl
  | delete id => exact Edit.exec_delete he s id
  | reorder order => exact Edit.exec_reorder he s order
  | move id direction => exact Edit.exec_move he s id direction
  | select id =>
    rw [run, Edit.exec_bind, outcome]
    cases hfound : e.layer? id with
    | none =>
      rw [Edit.select, Edit.exec_update, hfound]
      rfl
    | some l =>
      obtain ⟨-, rfl⟩ := Editor.mem_of_layer? hfound
      rw [Edit.exec_select hfound]
      rfl
  | edit id change =>
    rw [run, LayerEdit.exec_run he, outcome]
    cases change.outcome s e id <;> rfl
  | setBackgroundSize width height =>
    rw [run, Edit.setBackgroundSize, Edit.exec_bind, Edit.exec_bind, Edit.exec_refuseIf, outcome]
    generalize (!(width.isFinite && height.isFinite) || width ≤ 0 || height ≤ 0) = refused
    cases refused <;> rfl
  | setTool _ | clearSelection | setBackgroundPosition _ | setBackdropColor _ => rfl

namespace Editor

/-- What comes of a creation: a new layer, nothing, or a fault. -/
def creating (e : Editor) (asked : List LayerKind) : Except Fault (Option Creation) → Outcome
  | .ok new? => ⟨.ok (e.created new?).1, (e.created new?).2, asked⟩
  | .error fault => ⟨.error fault, e, asked⟩

variable {e e' : Editor} {s : Surroundings} {op : EditorOp}

/-- An operation that creates layers leads to a new layer, to nothing, or to a fault, if
identifiers that will be given are new. -/
theorem step_of_creating? (hfresh : ∀ l ∈ e.layers, l.id.val ≤ e.lastId)
    {r : Except Fault (Option Creation)} (h : op.creating? s e = some r) :
    e.step s op = (op.failed e).creating (op.asks e) r := by
  rw [step_eq_exec, EditorOp.exec_run_of_creating? hfresh h, EditorOp.outcome_eq_created h]
  cases r <;> rfl

/-- An operation whose outcome is another editor leads to it. -/
theorem step_of_ok (he : e.InStep) {answer : Answer} (h : op.outcome s e = .ok (answer, e')) :
    e.step s op = ⟨.ok answer, e', op.asks e⟩ := by
  rw [step_eq_exec, EditorOp.exec_run he, h]
  rfl

/-- An operation whose outcome is a fault fails with it. -/
theorem step_of_error (he : e.InStep) {fault : Fault} (h : op.outcome s e = .error fault) :
    e.step s op = ⟨.error fault, op.failed e, op.asks e⟩ := by
  rw [step_eq_exec, EditorOp.exec_run he, h]
  rfl

end Editor

end WidgetSkin
