import WidgetSkin.Proofs.Editor.LayerRun
import WidgetSkin.Proofs.Editor.Order

/-!
# Outcomes of operations

On an editor in step with its canvas, every operation is all or nothing: it fails, or it leads to
another editor in one go. The outcome of an operation says which, and what the editor is then.

## Main definitions

* `EditorConfig.creation` — what a new layer of a kind shows, and where.
* `EditorOp.outcome` — what an operation leads to.
* `EditorOp.asks` — what an operation asks the user.
* `EditorOp.failed` — what is left of an editor after an operation that failed.
* `EditorOp.creating?` — what an operation is to create.

## Main statements

* `EditorOp.outcome_eq_created` — what becomes of an operation that creates layers.
* `EditorOp.outcome_reorder_of_perm`, `EditorOp.outcome_reorder_of_not_perm` — what becomes of a
  new order.
* `EditorOp.outcome_eq_noObject` — no operation fails for want of an object.
* `EditorOp.failed_eq`, `EditorOp.eq_of_outcome_eq_created_none` — operations that come to
  nothing.
-/

namespace WidgetSkin

/-! ## New layers -/

/-- What a new layer shows, and where. -/
structure Creation where
  payload : Payload
  geometry : Geometry

namespace EditorConfig

/-- A new text. -/
def text (c : EditorConfig) (point : Point) (words : String) : Creation :=
  ⟨.text ⟨words, c.fontName, c.fontSize, c.textFill⟩, { position := point, size := c.textBox }⟩

/-- A new bar. -/
def bar (c : EditorConfig) (point : Point) : Creation :=
  ⟨.bar ⟨c.barBackground, c.barForeground⟩, { position := point, size := c.barBox }⟩

/-- A new shape. -/
def shape (c : EditorConfig) (outline : Outline) (point : Point) : Creation :=
  ⟨.shape ⟨outline, shapeFill outline⟩, { position := point, size := c.shapeBox }⟩

/-- A new image, if the user picks a file. -/
def image (s : Surroundings) (point : Point) : Except Fault (Option Creation) := do
  match ← s.pick .image with
  | some source =>
    let size ← s.imageSize source
    return some ⟨.image source, { position := point, size }⟩
  | none => return none

/-- The image of a new rotator, if there is one. -/
def needle (c : EditorConfig) (s : Surroundings) : Except Fault (Option String) :=
  match c.needleImage with
  | some source => .ok (some source)
  | none => s.pick .rotator

/-- A new rotator, if there is an image for it. -/
def rotator (c : EditorConfig) (s : Surroundings) (point : Point) :
    Except Fault (Option Creation) := do
  match ← c.needle s with
  | some source =>
    let size ← s.imageSize source
    return some ⟨.rotator { source },
      { position := point, size, angle := c.rotatorPreviewAngle }⟩
  | none => return none

/-- A new layer of a kind, if there is what it needs. -/
def creation (c : EditorConfig) (s : Surroundings) (point : Point) :
    LayerKind → Except Fault (Option Creation)
  | .text => .ok (some (c.text point c.textContent))
  | .image => image s point
  | .rotator => c.rotator s point
  | .bar => .ok (some (c.bar point))
  | .shape => .ok (some (c.shape .rectangle point))

/-- What the user is asked for a new layer of a kind. -/
def asks (c : EditorConfig) : LayerKind → List LayerKind
  | .image => [.image]
  | .rotator => if c.needleImage.isNone then [.rotator] else []
  | .text | .bar | .shape => []

end EditorConfig

namespace Editor

/-- The answer and the editor once a new layer was made, or none. -/
def created (e : Editor) : Option Creation → Answer × Editor
  | some new =>
    (.created (some (e.nextLayer new.payload).id), e.inserting new.payload new.geometry)
  | none => (.created none, e)

end Editor

namespace EditorOp

/-- What an operation leads to. -/
def outcome (s : Surroundings) (e : Editor) : EditorOp → Except Fault (Answer × Editor)
  | .createText point words => .ok (e.created (some (e.config.text point words)))
  | .createBar point => .ok (e.created (some (e.config.bar point)))
  | .createShape outline point => .ok (e.created (some (e.config.shape outline point)))
  | .createImage point => e.created <$> e.config.creation s point .image
  | .createRotator point => e.created <$> e.config.creation s point .rotator
  | .create kind point => e.created <$> e.config.creation s point kind
  | .place point =>
    match e.tool.placementKind? with
    | some kind => Editor.created { e with tool := .select } <$> e.config.creation s point kind
    | none => .ok (.created none, e)
  | .setTool tool => .ok (.nothing, { e with tool })
  | .delete id =>
    match e.layer? id with
    | some l => .ok (.flag true, e.without l)
    | none => .ok (.flag false, e)
  | .reorder order =>
    if order.length = e.layers.length then do
      Edit.requireDistinct e [] order
      return (.nothing, e.ordered (order.filterMap e.layer?))
    else .error (.invalid (.reorderLength e.layers.length order.length))
  | .move id direction => do
    let _ ← e.requireLayer id
    return (.nothing, e.ordered (e.moved id direction))
  | .select id =>
    match e.layer? id with
    | some l => .ok (.nothing, e.selecting (some l))
    | none => .ok (.nothing, e)
  | .clearSelection => .ok (.nothing, e.selecting none)
  | .edit id change => change.outcome s e id
  | .setBackgroundPosition position =>
    .ok (.nothing, { e with background := { e.background with position } })
  | .setBackgroundSize width height =>
    if !(width.isFinite && height.isFinite) || width ≤ 0 || height ≤ 0 then
      .error (.invalid .backgroundNotPositive)
    else .ok (.nothing, { e with background := { e.background with width, height } })
  | .setBackdropColor backdropColor =>
    .ok (.nothing, { e with background := { e.background with backdropColor } })

/-- What an operation asks the user. -/
def asks (e : Editor) : EditorOp → List LayerKind
  | .createImage _ => e.config.asks .image
  | .createRotator _ => e.config.asks .rotator
  | .create kind _ => e.config.asks kind
  | .place _ => e.tool.placementKind?.elim [] e.config.asks
  | .createText .. | .createBar _ | .createShape .. | .setTool _ | .delete _ | .reorder _
  | .move .. | .select _ | .clearSelection | .edit .. | .setBackgroundPosition _
  | .setBackgroundSize .. | .setBackdropColor _ => []

/-- The editor after an operation that failed. A click has used its tool up. -/
def failed (e : Editor) : EditorOp → Editor
  | .place _ => { e with tool := .select }
  | _ => e

end EditorOp

/-! ## Operations that create layers -/

namespace EditorOp

/-- What an operation is to create, if it is one that creates layers. -/
def creating? (s : Surroundings) (e : Editor) : EditorOp → Option (Except Fault (Option Creation))
  | .createText point words => some (.ok (some (e.config.text point words)))
  | .createBar point => some (.ok (some (e.config.bar point)))
  | .createShape outline point => some (.ok (some (e.config.shape outline point)))
  | .createImage point => some (e.config.creation s point .image)
  | .createRotator point => some (e.config.creation s point .rotator)
  | .create kind point => some (e.config.creation s point kind)
  | .place point =>
    some (e.tool.placementKind?.elim (.ok none) (e.config.creation s point))
  | .setTool _ | .delete _ | .reorder _ | .move .. | .select _ | .clearSelection | .edit ..
  | .setBackgroundPosition _ | .setBackgroundSize .. | .setBackdropColor _ => none

/-- The tool of a click is used up before its layer is made. -/
theorem outcome_eq_created {s : Surroundings} {e : Editor} {op : EditorOp}
    {r : Except Fault (Option Creation)} (h : op.creating? s e = some r) :
    op.outcome s e = (op.failed e).created <$> r := by
  cases op with
  | place point =>
    obtain rfl := Option.some.inj h
    rw [outcome]
    cases htool : e.tool with
    | select =>
      have hselect : { e with tool := .select } = e := by rw [← htool]
      simp only [Tool.placementKind?, failed, hselect]
      rfl
    | text | image | rotator | bar => rfl
  | createText _ _ | createBar _ | createShape _ _ | createImage _ | createRotator _
  | create _ _ =>
    obtain rfl := Option.some.inj h
    rfl
  | setTool _ | delete _ | reorder _ | move _ _ | select _ | clearSelection | edit _ _
  | setBackgroundPosition _ | setBackgroundSize _ _ | setBackdropColor _ => cases h

end EditorOp

/-! ## New orders -/

namespace EditorOp

variable {e : Editor} {ids : List LayerId}

theorem outcome_reorder_of_perm (he : e.InStep) (hperm : ids.Perm e.order) (s : Surroundings) :
    outcome s e (.reorder ids) = .ok (.nothing, e.arranged ids) := by
  obtain ⟨hlength, hdistinct⟩ := (Editor.accepts_iff_perm he).2 hperm
  rw [outcome, if_pos hlength, hdistinct]
  rfl

theorem outcome_reorder_of_not_perm (he : e.InStep) (hperm : ¬ ids.Perm e.order)
    (s : Surroundings) : ∃ fault, outcome s e (.reorder ids) = .error fault := by
  rw [outcome]
  by_cases hlength : ids.length = e.layers.length
  · rw [if_pos hlength]
    cases hdistinct : Edit.requireDistinct e [] ids with
    | error fault => exact ⟨fault, rfl⟩
    | ok _ => exact absurd ((Editor.accepts_iff_perm he).1 ⟨hlength, hdistinct⟩) hperm
  · rw [if_neg hlength]
    exact ⟨_, rfl⟩

end EditorOp

/-! ## Failures -/

namespace EditorConfig

variable {c : EditorConfig} {s : Surroundings} {point : Point} {id : LayerId}

theorem image_eq_noObject (h : image s point = .error (.invalid (.noObject id))) :
    s.pick .image = .error (.invalid (.noObject id)) := by
  by_contra hpick
  refine bind_ne_error hpick (fun source? _ => ?_) h
  cases source? with
  | none => simp
  | some source => exact bind_ne_error (s.imageSize_ne_noObject id source) (by simp)

theorem rotator_eq_noObject (h : c.rotator s point = .error (.invalid (.noObject id))) :
    s.pick .rotator = .error (.invalid (.noObject id)) := by
  by_contra hpick
  refine bind_ne_error (x := c.needle s) ?_ (fun source? _ => ?_) h
  · unfold needle
    split
    · simp
    · exact hpick
  · cases source? with
    | none => simp
    | some source => exact bind_ne_error (s.imageSize_ne_noObject id source) (by simp)

/-- A new layer fails for want of an object only if the user's picker says so. -/
theorem creation_eq_noObject {kind : LayerKind}
    (h : c.creation s point kind = .error (.invalid (.noObject id))) :
    ∃ kind, s.pick kind = .error (.invalid (.noObject id)) := by
  cases kind with
  | image => exact ⟨_, image_eq_noObject h⟩
  | rotator => exact ⟨_, rotator_eq_noObject h⟩
  | text | bar | shape => cases h

end EditorConfig

theorem Edit.requireDistinct_ne_noObject (e : Editor) (seen order : List LayerId) (id : LayerId) :
    Edit.requireDistinct e seen order ≠ .error (.invalid (.noObject id)) := by
  induction order generalizing seen with
  | nil => simp [requireDistinct]
  | cons first order ih =>
    unfold requireDistinct
    split
    · simp
    · split
      · simp
      · exact ih _

namespace Editor

theorem requireLayer_ne_noObject (e : Editor) (id id' : LayerId) :
    e.requireLayer id' ≠ .error (.invalid (.noObject id)) := by
  unfold requireLayer
  split <;> simp

/-- The geometry of a layer is found, or there is no such layer. -/
theorem InStep.geometry_ne_noObject {e : Editor} (he : e.InStep) (id id' : LayerId) :
    e.geometry id' ≠ .error (.invalid (.noObject id)) := by
  cases hfound : e.layer? id' with
  | none => simp [geometry, requireLayer, hfound]
  | some l =>
    obtain ⟨hl, rfl⟩ := mem_of_layer? hfound
    obtain ⟨g, -, hg⟩ := he.geometry_eq hl
    rw [hg]
    simp

end Editor

namespace EditorOp

variable {e e' : Editor} {s : Surroundings}

/-- An operation fails for want of an object only if the user's picker says so. -/
theorem outcome_eq_noObject (he : e.InStep) {op : EditorOp} {id : LayerId}
    (h : op.outcome s e = .error (.invalid (.noObject id))) :
    ∃ kind, s.pick kind = .error (.invalid (.noObject id)) := by
  cases op with
  | createImage point => exact EditorConfig.creation_eq_noObject (map_eq_error_iff.1 h)
  | createRotator point => exact EditorConfig.creation_eq_noObject (map_eq_error_iff.1 h)
  | create kind point => exact EditorConfig.creation_eq_noObject (map_eq_error_iff.1 h)
  | place point =>
    simp only [outcome] at h
    split at h
    · exact EditorConfig.creation_eq_noObject (map_eq_error_iff.1 h)
    · cases h
  | delete _ | select _ =>
    simp only [outcome] at h
    split at h <;> cases h
  | reorder order =>
    simp only [outcome] at h
    split at h
    · exact absurd h (bind_ne_error (Edit.requireDistinct_ne_noObject e [] order id)
        (by simp))
    · cases h
  | move id' direction =>
    exact absurd h (bind_ne_error (e.requireLayer_ne_noObject id id') (by simp))
  | edit id' change =>
    refine absurd h (bind_ne_error (change.check_ne_noObject id) fun _ _ => ?_)
    refine bind_ne_error (e.requireLayer_ne_noObject id id') fun l _ => ?_
    refine bind_ne_error (he.geometry_ne_noObject id id') fun g _ => ?_
    exact bind_ne_error (change.rewrite_ne_noObject id) (by simp)
  | setBackgroundSize width height =>
    simp only [outcome] at h
    split at h <;> cases h
  | createText _ _ | createBar _ | createShape _ _ | setTool _ | clearSelection
  | setBackgroundPosition _ | setBackdropColor _ => cases h

/-- Only a click with a placing tool changes an editor and fails. -/
theorem failed_eq {op : EditorOp} {fault : Fault} (h : op.outcome s e = .error fault) :
    op.failed e = e ∨ ∃ point kind, op = .place point ∧ e.tool.placementKind? = some kind ∧
      op.failed e = { e with tool := .select } := by
  cases op with
  | place point =>
    cases hkind : e.tool.placementKind? with
    | none => simp [outcome, hkind] at h
    | some kind => exact .inr ⟨point, kind, rfl, rfl, rfl⟩
  | _ => exact .inl rfl

/-- An operation that creates nothing changes nothing, but for the tool of a click. -/
theorem eq_of_outcome_eq_created_none {op : EditorOp}
    (h : op.outcome s e = .ok (.created none, e')) :
    e' = e ∨ ∃ point kind, op = .place point ∧ e.tool.placementKind? = some kind ∧
      e' = { e with tool := .select } := by
  have hcreated : ∀ {e₀ : Editor} {r : Except Fault (Option Creation)},
      e₀.created <$> r = .ok (.created none, e') → e' = e₀ := by
    intro e₀ r h
    obtain ⟨new?, -, hnew⟩ := map_eq_ok_iff.1 h
    cases new? with
    | none => exact (congrArg Prod.snd hnew).symm
    | some new => cases congrArg Prod.fst hnew
  cases op with
  | createImage point => exact .inl (hcreated h)
  | createRotator point => exact .inl (hcreated h)
  | create kind point => exact .inl (hcreated h)
  | place point =>
    cases hkind : e.tool.placementKind? with
    | none =>
      simp only [outcome, hkind] at h
      cases h
      exact .inl rfl
    | some kind =>
      simp only [outcome, hkind] at h
      exact .inr ⟨point, kind, rfl, rfl, hcreated h⟩
  | reorder order =>
    simp only [outcome] at h
    split at h
    · obtain ⟨_, -, h⟩ := bind_eq_ok_iff.1 h
      cases h
    · cases h
  | move id direction =>
    obtain ⟨_, -, h⟩ := bind_eq_ok_iff.1 h
    cases h
  | edit id change =>
    obtain ⟨_, -, h⟩ := bind_eq_ok_iff.1 h
    obtain ⟨l, -, h⟩ := bind_eq_ok_iff.1 h
    obtain ⟨g, -, h⟩ := bind_eq_ok_iff.1 h
    obtain ⟨c, hc, h⟩ := bind_eq_ok_iff.1 h
    have hanswer := congrArg Prod.fst (Except.ok.inj h)
    exact absurd hanswer ((LayerEdit.rewrite_keeps hc).answer_ne none)
  | delete _ | select _ | setBackgroundSize _ _ =>
    simp only [outcome] at h
    split at h <;> cases h
  | createText _ _ | createBar _ | createShape _ _ | setTool _ | clearSelection
  | setBackgroundPosition _ | setBackdropColor _ => cases h

end EditorOp

end WidgetSkin
