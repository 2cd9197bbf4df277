import WidgetSkin.Proofs.Editor.Anchored

/-!
# Revisions count writes

Listeners hear of every geometry that is written to a canvas, once each and in their order, and
of nothing else. An editor is one of them, and its revision is the number of geometries that
were written since it was bound, by itself or by the user.

## Main definitions

* `Editor.placing?` — the events that write a geometry.

## Main statements

* `Editor.Anchored.revision_after` — how an event changes the revision.
* `Editor.revision_counts_writes` — what listeners hear, and what a revision counts.
-/

namespace WidgetSkin

namespace Editor

/-- The event, if it writes a geometry. -/
def placing? (e : Editor) (event : Event) : Option Event :=
  if e.places event then some event else none

namespace Anchored

variable {e : Editor}

/-- An event changes the revision by the number of geometries that it writes. -/
theorem revision_after (h : e.Anchored) (event : Event) :
    (e.after event).revision = e.revision + if e.places event then 1 else 0 := by
  obtain ⟨ops, hcalls, hwrites⟩ := h.calls_after event
  rw [hcalls.revision_eq_of_listener_lt h.listener_lt, hwrites]

/-- A history is a sequence of calls on the canvas, which write as many geometries as it has
events that write one. -/
theorem calls_run (h : e.Anchored) (events : List Event) :
    ∃ calls, e.Calls calls (e.run events) ∧
      (e.canvas.writes calls).length = (notes placing? e events).length := by
  induction events using List.reverseRecOn with
  | nil => exact ⟨[], .none rfl rfl rfl, rfl⟩
  | append_singleton events event ih =>
    obtain ⟨calls, hcalls, hwrites⟩ := ih
    obtain ⟨ops, hops, hlength⟩ := (h.run events).calls_after event
    refine ⟨calls ++ ops, (run_concat e events event) ▸ hcalls.trans hops, ?_⟩
    rw [Canvas.writes_append, List.length_append, hwrites, ← hcalls.canvas_eq, hlength,
      notes_concat, List.length_append, placing?]
    split <;> rfl

end Anchored

/-- What listeners hear, and what a revision counts. Whatever was done on a canvas, an operation
is heard of by all listeners if it writes a geometry, and by none otherwise; a geometry is
written by `setGeometry` and by `dragTo` if the handle has an object, and `dragTo` changes the
position of that object and nothing else. So a listener hears of exactly those writes that
follow when it was added, in their order. An editor on such a canvas is one listener more. Its
revision is the number of writes that it heard of, and it grows by one with every drag of an
object, every edit of a position, size, scale, angle, image or start angle that succeeds, and
with nothing else. -/
theorem revision_counts_writes :
    (∀ (before after : List CanvasOp) (op : CanvasOp),
      let c := ({} : Canvas).run before
      (c.step op).notices =
        (c.write? op).toList.flatMap (fun w => (List.range c.listeners).map (⟨·, w.1, w.2⟩)) ∧
      (∀ h g, c.write? op = some (h, g) ↔ c.isLive h = true ∧
        (op = .setGeometry h g ∨ ∃ p old, op = .dragTo h p ∧ c.geometry? h = some old ∧
          g = { old with position := p })) ∧
      (∀ h g, c.write? op = some (h, g) → Canvas.geometry? (c.step op).canvas h = some g) ∧
      (∀ h o p, c.object? h = some o → (c.step (.dragTo h p)).canvas =
        c.change h fun o => { o with geometry := { o.geometry with position := p } }) ∧
      (c.step .listen).answer = .listener c.listeners ∧
      ({} : Canvas).heardBy c.listeners (before ++ .listen :: after) =
        (c.step .listen).canvas.writes after) ∧
    ∀ (past : List CanvasOp) (config : EditorConfig) (events : List Event),
      let bound := Editor.ofCanvas (({} : Canvas).run past) config
      let e := bound.run events
      (∃ calls, e.canvas = ({} : Canvas).run (past ++ .listen :: calls) ∧
        e.revision = (bound.canvas.writes calls).length ∧
        e.revision = (({} : Canvas).heardBy e.listener (past ++ .listen :: calls)).length) ∧
      e.revision = (notes placing? bound events).length ∧
      ∀ event, (e.after event).revision = e.revision + if e.places event then 1 else 0 := by
  constructor
  · intro before after op c
    have hc : c.Sound := Canvas.Sound.empty.run before
    refine ⟨c.notices_step op, fun h g => Canvas.write?_eq_some_iff,
      fun h g => Canvas.geometry?_of_write?, fun h o p ho => Canvas.step_dragTo_of_object? hc ho p,
      rfl, ?_⟩
    rw [Canvas.heardBy_append_listen, Canvas.run_append]
    rfl
  · intro past config events bound e
    have hbound : bound.Anchored := .ofCanvas (Canvas.Sound.empty.run past) config
    obtain ⟨calls, hcalls, hwrites⟩ := hbound.calls_run events
    have hrevision : e.revision = (bound.canvas.writes calls).length :=
      (hcalls.revision_eq_of_listener_lt hbound.listener_lt).trans (Nat.zero_add _)
    refine ⟨⟨calls, ?_, hrevision, ?_⟩, hrevision.trans hwrites,
      (hbound.run events).revision_after⟩
    · rw [hcalls.canvas_eq, Canvas.run_append]
      rfl
    · rw [hrevision, hcalls.listener_eq]
      exact congrArg List.length ((Canvas.heardBy_append_listen {} past calls).trans
        (by rw [Canvas.run_append]; rfl)).symm

end Editor

end WidgetSkin
