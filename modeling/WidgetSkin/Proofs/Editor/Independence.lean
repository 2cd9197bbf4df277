import WidgetSkin.Proofs.Editor.History

/-!
# Edits of different layers

An edit reads one layer and its object, and writes these two. Different layers have different
objects, so edits of two layers neither see nor disturb each other: in either order they answer
the same and lead to the same editor.

## Main definitions

* `LayerEdit.effect` — what an edit makes of its layer, or why it fails.
* `Editor.taking` — the editor after that.
* `Editor.AlikeAt` — two editors with the same layer and the same object.

## Main statements

* `LayerEdit.effect_congr` — an edit reads nothing but its layer and its object.
* `Editor.InStep.alikeAt_taking`, `Editor.InStep.taking_comm` — an edit writes nothing else.
* `Editor.Reachable.edits_independent` — edits of different layers, in either order.
-/

namespace WidgetSkin

/-- What an edit makes of a layer, or why it fails. -/
def LayerEdit.effect (s : Surroundings) (e : Editor) (id : LayerId) (change : LayerEdit) :
    Except Fault LayerChange := do
  change.check
  let l ← e.requireLayer id
  let g ← e.geometry id
  change.rewrite s l g

/-- The editor after a change of a layer. One that failed left everything as it was. -/
def Editor.taking (e : Editor) : Except Fault LayerChange → Editor
  | .ok c => e.writing c.layer c.placement
  | .error _ => e

/-- Two editors have the same layer with an identifier, or none, and the same object shows it. -/
structure Editor.AlikeAt (id : LayerId) (e e' : Editor) : Prop where
  layer?_eq : e'.layer? id = e.layer? id
  object?_eq : ∀ l, e.layer? id = some l →
    e'.canvas.object? l.handle = e.canvas.object? l.handle

variable {config : EditorConfig} {e e' : Editor} {id a b : LayerId} {l m : Layer}
  {s t : Surroundings} {A B : LayerEdit} {c : LayerChange}

namespace Editor

namespace InStep

/-- An edit answers for its layer and writes it. -/
theorem step_edit (he : e.InStep) (s : Surroundings) (id : LayerId) (A : LayerEdit) :
    e.step s (.edit id A) =
      ⟨LayerChange.answer <$> A.effect s e id, e.taking (A.effect s e id), []⟩ := by
  have houtcome : (EditorOp.edit id A).outcome s e =
      (fun c => (c.answer, e.writing c.layer c.placement)) <$> A.effect s e id := by
    simp only [EditorOp.outcome, LayerEdit.outcome, LayerEdit.effect, map_eq_pure_bind, bind_assoc]
  cases heffect : A.effect s e id with
  | error fault =>
    rw [heffect] at houtcome
    exact step_of_error he houtcome
  | ok c =>
    rw [heffect] at houtcome
    exact step_of_ok he houtcome

end InStep

/-! ## What an edit reads -/

namespace AlikeAt

theorem requireLayer_eq (h : AlikeAt id e e') : e'.requireLayer id = e.requireLayer id := by
  rw [requireLayer, requireLayer, h.layer?_eq]

theorem geometry_eq (h : AlikeAt id e e') : e'.geometry id = e.geometry id := by
  rw [geometry, geometry, h.requireLayer_eq]
  cases hl : e.requireLayer id with
  | error fault => rfl
  | ok l =>
    simp only [ok_bind, Canvas.geometry?, h.object?_eq l (requireLayer_eq_ok_iff.1 hl)]

end AlikeAt

end Editor

/-- An edit does the same in editors that have its layer and its object in common. -/
theorem LayerEdit.effect_congr (h : Editor.AlikeAt id e e') (s : Surroundings) (A : LayerEdit) :
    A.effect s e' id = A.effect s e id := by
  rw [effect, effect, h.requireLayer_eq, h.geometry_eq]

/-! ## What an edit writes -/

namespace Editor

/-- The layer that an edit writes is the one it was made for, and keeps its object. -/
theorem effect_eq_ok (hc : A.effect s e id = .ok c) :
    ∃ l ∈ e.layers, l.id = id ∧ c.Keeps l := by
  obtain ⟨_, -, hc⟩ := bind_eq_ok_iff.1 hc
  obtain ⟨l, hl, hc⟩ := bind_eq_ok_iff.1 hc
  obtain ⟨g, -, hc⟩ := bind_eq_ok_iff.1 hc
  obtain ⟨hmem, hid⟩ := mem_of_layer? (requireLayer_eq_ok_iff.1 hl)
  exact ⟨l, hmem, hid, LayerEdit.rewrite_keeps hc⟩

theorem setLayer_comm (e : Editor) (hid : l.id ≠ m.id) :
    (e.setLayer l).setLayer m = (e.setLayer m).setLayer l := by
  unfold setLayer
  simp only [List.map_map]
  congr 1
  refine List.map_congr_left fun n _ => ?_
  by_cases hl : n.id = l.id
  · simp [hl, hid]
  · by_cases hm : n.id = m.id <;> simp [hl, hm, hid.symm]

theorem writing_comm (e : Editor) (hid : l.id ≠ m.id) (hhandle : l.handle ≠ m.handle)
    (p q : Option Geometry) : (e.writing l p).writing m q = (e.writing m q).writing l p := by
  have hlayers := congrArg Editor.layers (e.setLayer_comm hid)
  have hcanvas := e.canvas.change_comm hhandle (fun o => l.objectAt (p.getD o.geometry))
    (fun o => m.objectAt (q.getD o.geometry))
  have hrevision := Nat.add_right_comm e.revision p.toList.length q.toList.length
  simp only [setLayer] at hlayers
  simp only [writing, setLayer, hlayers, hcanvas, hrevision]

namespace InStep

/-- Different layers have different objects. -/
theorem handle_ne (he : e.InStep) (hl : l ∈ e.layers) (hm : m ∈ e.layers) (hne : l.id ≠ m.id) :
    l.handle ≠ m.handle :=
  fun heq => hne (congrArg Layer.id (he.eq_of_handle_eq hl hm heq))

/-- An edit leaves every other layer as it was, and its object. -/
theorem alikeAt_taking (he : e.InStep) (hne : a ≠ b) :
    AlikeAt b e (e.taking (A.effect s e a)) := by
  cases heffect : A.effect s e a with
  | error fault => exact ⟨rfl, fun _ _ => rfl⟩
  | ok c =>
    obtain ⟨l, hl, rfl, hkeeps⟩ := effect_eq_ok heffect
    refine ⟨?_, fun m hm => ?_⟩
    · have hfound := layer?_setLayer he.ids_nodup hl hkeeps.id_eq b
      rwa [hkeeps.id_eq, if_neg hne.symm] at hfound
    · obtain ⟨hmem, rfl⟩ := mem_of_layer? hm
      have hhandle : m.handle ≠ c.layer.handle := by
        rw [hkeeps.handle_eq]
        exact he.handle_ne hmem hl hne.symm
      exact (Canvas.object?_change ..).trans (if_neg hhandle)

/-- What two edits write does not meet. -/
theorem taking_comm (he : e.InStep) (hne : a ≠ b) :
    (e.taking (A.effect s e a)).taking (B.effect t e b) =
      (e.taking (B.effect t e b)).taking (A.effect s e a) := by
  cases hA : A.effect s e a with
  | error fault => rfl
  | ok c =>
    cases hB : B.effect t e b with
    | error fault => rfl
    | ok d =>
      obtain ⟨l, hl, rfl, hc⟩ := effect_eq_ok hA
      obtain ⟨m, hm, rfl, hd⟩ := effect_eq_ok hB
      refine e.writing_comm ?_ ?_ c.placement d.placement
      · rwa [hc.id_eq, hd.id_eq]
      · rw [hc.handle_eq, hd.handle_eq]
        exact he.handle_ne hl hm hne

end InStep

/-! ## Either order -/

/-- Edits of different layers, known or not, are independent: none touches the layer and the
object of the other, and in either order they answer the same and lead to the same editor. -/
theorem Reachable.edits_independent (h : Reachable config e) (hne : a ≠ b)
    (s t : Surroundings) (A B : LayerEdit) :
    let x := e.step s (.edit a A)
    let y := e.step t (.edit b B)
    x.editor.layer? b = e.layer? b ∧
    (∀ l, e.layer? b = some l →
      x.editor.canvas.object? l.handle = e.canvas.object? l.handle) ∧
    (x.editor.step t (.edit b B)).result = y.result ∧
    (y.editor.step s (.edit a A)).result = x.result ∧
    (x.editor.step t (.edit b B)).editor = (y.editor.step s (.edit a A)).editor := by
  intro x y
  have he := h.inStep
  have hx : x = ⟨_, e.taking (A.effect s e a), []⟩ := he.step_edit s a A
  have hy : y = ⟨_, e.taking (B.effect t e b), []⟩ := he.step_edit t b B
  have hxb : AlikeAt b e x.editor := by
    rw [hx]
    exact he.alikeAt_taking hne
  have hya : AlikeAt a e y.editor := by
    rw [hy]
    exact he.alikeAt_taking hne.symm
  have hxy : x.editor.step t (.edit b B) =
      ⟨LayerChange.answer <$> B.effect t e b, x.editor.taking (B.effect t e b), []⟩ := by
    rw [(he.step s (.edit a A)).step_edit t b B, LayerEdit.effect_congr hxb]
  have hyx : y.editor.step s (.edit a A) =
      ⟨LayerChange.answer <$> A.effect s e a, y.editor.taking (A.effect s e a), []⟩ := by
    rw [(he.step t (.edit b B)).step_edit s a A, LayerEdit.effect_congr hya]
  refine ⟨hxb.layer?_eq, hxb.object?_eq, ?_, ?_, ?_⟩
  · rw [hxy, hy]
  · rw [hyx, hx]
  · rw [hxy, hyx, hx, hy]
    exact he.taking_comm hne

/-- Of two bars one is locked and the other one put elsewhere, in either order. -/
theorem Reachable.edits_independent_of_bars :
    let bar := Event.operation .silent (.createBar ⟨0, 0⟩)
    let e := (Editor.new {}).run [bar, bar]
    let x := e.step .silent (.edit ⟨1⟩ .toggleLock)
    let y := e.step .silent (.edit ⟨2⟩ (.position ⟨30, 40⟩))
    x.result = .ok (.flag true) ∧ y.result = .ok .nothing ∧ y.editor.revision = 1 ∧
      (x.editor.step .silent (.edit ⟨2⟩ (.position ⟨30, 40⟩))).editor =
        (y.editor.step .silent (.edit ⟨1⟩ .toggleLock)).editor := by
  intro bar e x y
  have hreachable : Reachable {} e := reachable_run {} [bar, bar]
  have hne : (⟨1⟩ : LayerId) ≠ ⟨2⟩ := by decide
  obtain ⟨-, -, -, -, hsame⟩ := edits_independent hreachable hne .silent .silent .toggleLock
    (.position ⟨30, 40⟩)
  exact ⟨by rfl, by rfl, by rfl, hsame⟩

end Editor

end WidgetSkin
