import WidgetSkin.Proofs.Editor.History

/-!
# Layers in another order

A list of identifiers is a new order of the layers if it names each of them once, and nothing else
is: the layers are drawn one after another from a pile, and the pile holds exactly those that the
list has yet to name. Then the layers and their objects lie in the new order and are otherwise
what they were; every other list is refused and changes nothing.

## Main statements

* `Editor.InStep.step_reorder`, `Editor.InStep.step_reorder_of_not_perm` — what a new order leads
  to.
* `Editor.Reachable.reorder_iff_perm` — in every state, new orders are the permutations.
-/

namespace WidgetSkin

namespace Editor

variable {config : EditorConfig} {e : Editor} {ids : List LayerId}

namespace InStep

theorem step_reorder (he : e.InStep) (hperm : ids.Perm e.order) (s : Surroundings) :
    e.step s (.reorder ids) = ⟨.ok .nothing, e.arranged ids, []⟩ :=
  step_of_ok he (EditorOp.outcome_reorder_of_perm he hperm s)

theorem step_reorder_of_not_perm (he : e.InStep) (hperm : ¬ ids.Perm e.order) (s : Surroundings) :
    ∃ fault, e.step s (.reorder ids) = ⟨.error fault, e, []⟩ := by
  obtain ⟨fault, hrefused⟩ := EditorOp.outcome_reorder_of_not_perm he hperm s
  exact ⟨fault, step_of_error he hrefused⟩

end InStep

namespace Reachable

/-- A new order is accepted exactly if it is a permutation of the present one. It is then the
order of the layers, and of their objects on the canvas; no layer and no object is another one,
and neither is anything else. A list that is refused changes nothing. -/
theorem reorder_iff_perm (h : Reachable config e) (s : Surroundings) (ids : List LayerId) :
    let e' := (e.step s (.reorder ids)).editor
    ((e.step s (.reorder ids)).result = .ok .nothing ↔ ids.Perm e.order) ∧
    (ids.Perm e.order →
      e'.order = ids ∧ e'.layers.Perm e.layers ∧ (∀ id, e'.layer? id = e.layer? id) ∧
      (∀ k, e'.canvas.object? k = e.canvas.object? k) ∧
      e'.selected = e.selected ∧ e'.canvas.active = e.canvas.active ∧
      e'.canvas.stacking = e'.layers.map Layer.handle ∧
      e' = { e with
        layers := e'.layers, canvas := { e.canvas with stacking := e'.canvas.stacking } }) ∧
    (¬ ids.Perm e.order →
      (∃ fault, (e.step s (.reorder ids)).result = .error fault) ∧ e' = e) := by
  have he := h.inStep
  by_cases hperm : ids.Perm e.order
  · rw [he.step_reorder hperm s]
    refine ⟨iff_of_true rfl hperm, fun _ => ?_, fun hnot => absurd hperm hnot⟩
    exact ⟨order_arranged he hperm, filterMap_layer?_perm he hperm, layer?_arranged he hperm,
      fun _ => rfl, rfl, rfl, (he.arranged hperm).stacking_eq, rfl⟩
  · obtain ⟨fault, hrefused⟩ := he.step_reorder_of_not_perm hperm s
    rw [hrefused]
    exact ⟨iff_of_false (fun hok => by cases hok) hperm, fun hyes => absurd hyes hperm,
      fun _ => ⟨⟨fault, rfl⟩, rfl⟩⟩

/-- Of three bars the last one is put first; an order that names one of them twice is refused. -/
theorem reorder_iff_perm_of_bars :
    let bar := Event.operation .silent (.createBar ⟨0, 0⟩)
    let e := (Editor.new {}).run [bar, bar, bar]
    let e' := (e.step .silent (.reorder [⟨3⟩, ⟨1⟩, ⟨2⟩])).editor
    e.order = [⟨1⟩, ⟨2⟩, ⟨3⟩] ∧ e'.order = [⟨3⟩, ⟨1⟩, ⟨2⟩] ∧
      e'.canvas.stacking = e'.layers.map Layer.handle ∧
      (e.step .silent (.reorder [⟨3⟩, ⟨3⟩, ⟨2⟩])).editor = e := by
  intro bar e e'
  have hreachable : Reachable {} e := reachable_run {} [bar, bar, bar]
  obtain ⟨-, harranged, -⟩ := reorder_iff_perm hreachable .silent [⟨3⟩, ⟨1⟩, ⟨2⟩]
  obtain ⟨-, -, hrefused⟩ := reorder_iff_perm hreachable .silent [⟨3⟩, ⟨3⟩, ⟨2⟩]
  obtain ⟨horder, -, -, -, -, -, hstacking, -⟩ := harranged (by decide +kernel)
  exact ⟨by decide +kernel, horder, hstacking, (hrefused (by decide +kernel)).2⟩

end Reachable

end Editor

end WidgetSkin
