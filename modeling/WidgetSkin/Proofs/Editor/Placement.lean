import WidgetSkin.Proofs.Editor.Anchored
import WidgetSkin.Proofs.Editor.Identity

/-!
# Placement is one-shot

A click with a placing tool puts the selecting tool back and then does what the creation of a
layer does. A new layer comes on top of everything and changes nothing else; where none is made,
nothing at all changes. So a tool has to be chosen anew for every layer that is placed.

## Main definitions

* `Editor.clicked?`, `Event.tool?` — the layer that a click creates, and the tool that an event
  chooses.
* `Editor.armed` — whether a placing tool is chosen.

## Main statements

* `Editor.Anchored.step_place_of_kind` — a click is a creation with the tool put back.
* `Editor.Anchored.step_create_of_created` — what a new layer changes.
* `Editor.Anchored.clicked_add_armed_le` — a click that creates a layer uses a choice up.
* `Editor.placement_is_one_shot` — clicks and creations in every state of an editor.
-/

namespace WidgetSkin

/-- A new layer is of the kind that it was to be. -/
theorem EditorConfig.kind_of_creation {c : EditorConfig} {s : Surroundings} {point : Point}
    {kind : LayerKind} {new : Creation} (h : c.creation s point kind = .ok (some new)) :
    new.payload.kind = kind := by
  cases kind with
  | text | bar | shape =>
    cases h
    rfl
  | image | rotator =>
    obtain ⟨source?, -, h⟩ := bind_eq_ok_iff.1 h
    cases source? with
    | none => cases h
    | some source =>
      obtain ⟨size, -, h⟩ := bind_eq_ok_iff.1 h
      cases h
      rfl

/-- The tool that an event chooses. -/
def Event.tool? : Event → Option Tool
  | .operation _ (.setTool tool) => some tool
  | _ => none

namespace Editor

/-- The layer that a click creates. -/
def clicked? (e : Editor) : Event → Option LayerId
  | .operation s (.place point) => Answer.created? (e.step s (.place point)).result
  | _ => none

/-- One if a placing tool is chosen, and zero otherwise. -/
def armed (e : Editor) : Nat :=
  if e.tool = .select then 0 else 1

namespace Anchored

variable {e : Editor} {s : Surroundings} {point : Point} {kind : LayerKind}

/-- What the creation of a layer leads to. -/
theorem step_create (h : e.Anchored) (s : Surroundings) (kind : LayerKind) (point : Point) :
    e.step s (.create kind point) =
      e.creating (e.config.asks kind) (e.config.creation s point kind) :=
  step_of_creating? h.id_le_lastId rfl

/-- What a click leads to. -/
theorem step_place (h : e.Anchored) (s : Surroundings) (point : Point) :
    e.step s (.place point) = { e with tool := .select }.creating
      (e.tool.placementKind?.elim [] e.config.asks)
      (e.tool.placementKind?.elim (.ok none) (e.config.creation s point)) :=
  @step_of_creating? e s (.place point) h.id_le_lastId _ rfl

/-- A click with the selecting tool does nothing. -/
theorem step_place_of_select (h : e.Anchored) (htool : e.tool = .select) (s : Surroundings)
    (point : Point) : e.step s (.place point) = ⟨.ok (.created none), e, []⟩ := by
  have hselect : { e with tool := .select } = e := by rw [← htool]
  rw [h.step_place, hselect, htool]
  rfl

/-- A click with a placing tool creates a layer with the tool put back. -/
theorem step_place_of_kind (h : e.Anchored) (hkind : e.tool.placementKind? = some kind)
    (s : Surroundings) (point : Point) :
    e.step s (.place point) = { e with tool := .select }.step s (.create kind point) := by
  have hselect : Anchored { e with tool := .select } := { h with }
  rw [hselect.step_create, h.step_place, hkind]
  rfl

/-- A layer that is created comes on top of everything, is selected, and changes nothing else. -/
theorem step_create_of_created (h : e.Anchored) {id : LayerId}
    (hresult : (e.step s (.create kind point)).result = .ok (.created (some id))) :
    ∃ l g, (e.step s (.create kind point)).editor.layers = e.layers ++ [l] ∧
      l.id = id ∧ (∀ m ∈ e.layers, m.id ≠ id) ∧ l.kind = kind ∧
      l.measure = Catalog.defaultFor? kind ∧
      (e.step s (.create kind point)).editor.canvas.objects =
        e.canvas.objects ++ [(l.handle, l.objectAt g)] ∧
      l.handle ∉ e.canvas.handles ∧
      (e.step s (.create kind point)).editor.canvas.stacking = e.canvas.stacking ++ [l.handle] ∧
      (e.step s (.create kind point)).editor.selected = some id ∧
      (e.step s (.create kind point)).editor.canvas.active = some l.handle := by
  rw [h.step_create] at hresult ⊢
  cases hcreation : e.config.creation s point kind with
  | error fault =>
    rw [hcreation] at hresult
    cases hresult
  | ok new? =>
    rw [hcreation] at hresult
    cases new? with
    | none => cases hresult
    | some new =>
      cases hresult
      have hkind := EditorConfig.kind_of_creation hcreation
      have hmem : (e.nextLayer new.payload).handle ∈
          (e.adding new.payload new.geometry).canvas.handles := by
        rw [Editor.adding, Canvas.handles_add]
        exact List.mem_append_right _ (List.mem_singleton_self _)
      refine ⟨e.nextLayer new.payload, new.geometry, rfl, rfl, fun m hm hid => ?_, hkind,
        hkind ▸ rfl, rfl, h.canvas_sound.next_not_mem, rfl, rfl,
        Canvas.active_setActive_some hmem⟩
      have hle := h.id_le_lastId m hm
      simp only [hid, nextLayer] at hle
      omega

/-- A creation that gives no layer changes nothing. -/
theorem step_create_of_not_created (h : e.Anchored)
    (hresult : ∀ id, (e.step s (.create kind point)).result ≠ .ok (.created (some id))) :
    (e.step s (.create kind point)).editor = e := by
  rw [h.step_create] at hresult ⊢
  cases hcreation : e.config.creation s point kind with
  | error fault => rfl
  | ok new? =>
    rw [hcreation] at hresult
    cases new? with
    | none => rfl
    | some new => exact absurd rfl (hresult _)

/-! ## Every run -/

theorem config_after (h : e.Anchored) (event : Event) : (e.after event).config = e.config := by
  rcases h.cases_after event with hkeeps | ⟨s, tool, -, heq⟩ | ⟨s, op, new?, -, -, heq⟩
  · exact hkeeps.config_eq
  · rw [heq]
  · rw [heq]
    cases new? <;> cases op <;> rfl

theorem config_run (h : e.Anchored) (events : List Event) : (e.run events).config = e.config := by
  induction events using List.reverseRecOn with
  | nil => rfl
  | append_singleton events event ih => rw [run_concat, (h.run events).config_after, ih]

/-- Only the choice of a tool and a click change the tool. -/
theorem tool_after (h : e.Anchored) {event : Event} (htool : event.tool? = none)
    (hclick : ∀ s point, event ≠ .operation s (.place point)) :
    (e.after event).tool = e.tool := by
  rcases h.cases_after event with hkeeps | ⟨s, tool, rfl, -⟩ | ⟨s, op, new?, rfl, -, heq⟩
  · exact hkeeps.tool_eq
  · cases htool
  · have hfailed : op.failed e = e := by
      cases op <;> first | rfl | exact absurd rfl (hclick s _)
    rw [heq, hfailed]
    cases new? <;> rfl

/-- A click puts the selecting tool back, and creates a layer only if it was not chosen. -/
theorem click_after (h : e.Anchored) (s : Surroundings) (point : Point) :
    (e.step s (.place point)).editor.tool = .select ∧
      (e.tool = .select → Answer.created? (e.step s (.place point)).result = none) := by
  refine ⟨?_, fun htool => by rw [h.step_place_of_select htool]; rfl⟩
  rw [h.step_place]
  cases e.tool.placementKind?.elim (.ok none) (e.config.creation s point) with
  | error fault => rfl
  | ok new? => cases new? <;> rfl

/-- A click that creates a layer uses a choice of a tool up. -/
theorem clicked_add_armed_le (h : e.Anchored) (event : Event) :
    (e.clicked? event).toList.length + (e.after event).armed ≤
      e.armed + event.tool?.toList.length := by
  have hother : event.tool? = none → (∀ s point, event ≠ .operation s (.place point)) →
      e.clicked? event = none → (e.clicked? event).toList.length + (e.after event).armed ≤
        e.armed + event.tool?.toList.length := fun htool hclick hnone => by
    rw [hnone, htool, armed, h.tool_after htool hclick]
    exact Nat.le_of_eq (Nat.add_comm _ _)
  cases event with
  | drag k p => exact hother rfl (by simp) rfl
  | operation s op =>
    cases op with
    | place point =>
      obtain ⟨hafter, hnone⟩ := h.click_after s point
      have hselect : (e.after (.operation s (.place point))).armed = 0 := if_pos hafter
      rw [hselect]
      by_cases htool : e.tool = .select
      · simp [clicked?, hnone htool]
      · have harmed : e.armed = 1 := if_neg htool
        rw [harmed]
        exact Nat.le_add_right_of_le (Option.length_toList_le)
    | setTool tool =>
      have hle : (e.after (.operation s (.setTool tool))).armed ≤ 1 := by
        unfold armed
        split <;> omega
      simpa [clicked?, Event.tool?] using Nat.le_add_left_of_le hle
    | _ => exact hother rfl (by simp) rfl

/-- Clicks create as many layers as tools were chosen, or fewer. -/
theorem clicked_run_le (h : e.Anchored) (events : List Event) :
    (notes clicked? e events).length + (e.run events).armed ≤
      e.armed + (events.filterMap Event.tool?).length := by
  induction events using List.reverseRecOn with
  | nil => simp [notes]
  | append_singleton events event ih =>
    have hstep := (h.run events).clicked_add_armed_le event
    rw [notes_concat, run_concat, List.filterMap_append, List.length_append, List.length_append]
    have htool : (List.filterMap Event.tool? [event]).length = event.tool?.toList.length := by
      cases hevent : event.tool? <;> simp [hevent]
    omega

end Anchored

/-- Clicks and creations in every state of an editor, on whatever canvas. A click with the
selecting tool changes nothing; with a placing tool it is a choice of the selecting tool followed
by a creation of the tool's kind, in what it answers, asks and leaves. A creation asks the user
once for an image, and once for a rotator if no needle is configured. If it gives a layer, that
layer comes last, on top, and is selected, with the measure of its kind, and every layer and
object of before is as it was; otherwise the whole editor is. So clicks create no more layers
than tools were chosen. -/
theorem placement_is_one_shot (past : List CanvasOp) (config : EditorConfig)
    (events : List Event) :
    let bound := Editor.ofCanvas (({} : Canvas).run past) config
    let e := bound.run events
    (∀ s point,
      (e.tool = .select → e.step s (.place point) = ⟨.ok (.created none), e, []⟩) ∧
      (∀ kind, e.tool.placementKind? = some kind →
        (e.step s (.place point)).editor.tool = .select ∧
        e.step s (.place point) =
          (e.step s (.setTool .select)).editor.step s (.create kind point)) ∧
      ∀ kind,
        let o := e.step s (.create kind point)
        (o.asked = match kind with
          | .image => [.image]
          | .rotator => if config.needleImage = none then [.rotator] else []
          | .text | .bar | .shape => []) ∧
        (∀ id, o.result = .ok (.created (some id)) →
          ∃ l g, o.editor.layers = e.layers ++ [l] ∧ l.id = id ∧ (∀ m ∈ e.layers, m.id ≠ id) ∧
            l.kind = kind ∧ l.measure = Catalog.defaultFor? kind ∧
            o.editor.canvas.objects = e.canvas.objects ++ [(l.handle, l.objectAt g)] ∧
            l.handle ∉ e.canvas.handles ∧
            o.editor.canvas.stacking = e.canvas.stacking ++ [l.handle] ∧
            o.editor.selected = some id ∧ o.editor.canvas.active = some l.handle) ∧
        ((∀ id, o.result ≠ .ok (.created (some id))) → o.editor = e)) ∧
    (notes clicked? bound events).length ≤ (events.filterMap Event.tool?).length := by
  intro bound e
  have hbound : bound.Anchored := .ofCanvas (Canvas.Sound.empty.run past) config
  have he : e.Anchored := hbound.run events
  refine ⟨fun s point => ⟨fun htool => he.step_place_of_select htool s point,
    fun kind hkind => ⟨(he.click_after s point).1, he.step_place_of_kind hkind s point⟩,
    fun kind => ⟨?_, fun id => he.step_create_of_created,
      he.step_create_of_not_created⟩⟩, ?_⟩
  · have hconfig : e.config = config := hbound.config_run events
    have hasks : (e.step s (.create kind point)).asked = config.asks kind := by
      rw [he.step_create, hconfig]
      cases config.creation s point kind <;> rfl
    rw [hasks]
    cases kind with
    | rotator => cases hneedle : config.needleImage <;> simp [EditorConfig.asks, hneedle]
    | text | image | bar | shape => rfl
  · have hle := hbound.clicked_run_le events
    have harmed : bound.armed = 0 := rfl
    omega

end Editor

end WidgetSkin
