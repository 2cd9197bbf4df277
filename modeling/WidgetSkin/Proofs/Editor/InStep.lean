import Mathlib.Data.List.Nodup
import Mathlib.Data.List.Perm.Subperm
import WidgetSkin.Editor.Operations
import WidgetSkin.Proofs.Canvas.Handles
import WidgetSkin.Proofs.Keys
import WidgetSkin.Proofs.Success

/-!
# Editors in step with their canvases

The state of a design is split between an editor and its canvas. The two are in step if every
layer has one object that shows it, nothing else lies on the canvas, and both agree on the order
and on the selection. Every change that an editor makes has two sides; a change with both of its
sides keeps the two in step.

## Main definitions

* `Editor.InStep` — editor and canvas agree.
* `Editor.selecting`, `Editor.inserting`, `Editor.without`, `Editor.ordered`, `Editor.writing` —
  the changes, each with both of its sides.

## Main statements

* `Editor.InStep.new` — a new editor is in step.
* `Editor.InStep.writing` and its kin — every change keeps an editor in step.
-/

namespace WidgetSkin

/-- The object that shows a layer, with a geometry. -/
def Layer.objectAt (l : Layer) (geometry : Geometry) : CanvasObject where
  kind := l.kind
  geometry := geometry
  payload := l.payload
  visible := l.visible
  selectable := !l.locked

namespace Editor

/-! ## Layers by identifier -/

section Layers

variable {e : Editor} {id : LayerId} {l m : Layer}

theorem mem_of_layer? (h : e.layer? id = some l) : l ∈ e.layers ∧ l.id = id :=
  ⟨List.mem_of_find?_eq_some h, by simpa using List.find?_some h⟩

theorem layer?_eq_none_iff : e.layer? id = none ↔ ∀ l ∈ e.layers, l.id ≠ id := by
  simp [layer?]

theorem layer?_eq_some_iff (hnodup : (e.layers.map Layer.id).Nodup) :
    e.layer? id = some l ↔ l ∈ e.layers ∧ l.id = id :=
  find?_key_eq_some_iff hnodup

theorem requireLayer_eq_ok_iff : e.requireLayer id = .ok l ↔ e.layer? id = some l := by
  unfold requireLayer
  cases e.layer? id <;> simp

/-! ## Layers written over -/

@[simp] theorem map_id_setLayer (e : Editor) (l : Layer) :
    (e.setLayer l).layers.map Layer.id = e.layers.map Layer.id := by
  unfold setLayer
  rw [List.map_map]
  refine List.map_congr_left fun m _ => ?_
  by_cases hm : m.id = l.id <;> simp [hm]

theorem mem_setLayer : m ∈ (e.setLayer l).layers ↔
    m = l ∧ (∃ n ∈ e.layers, n.id = l.id) ∨ m ∈ e.layers ∧ m.id ≠ l.id := by
  unfold setLayer
  rw [List.mem_map]
  constructor
  · rintro ⟨n, hn, rfl⟩
    by_cases hid : n.id = l.id
    · exact .inl ⟨by simp [hid], n, hn, hid⟩
    · exact .inr (by simpa [hid] using hn)
  · rintro (⟨rfl, n, hn, hid⟩ | ⟨hm, hid⟩)
    · exact ⟨n, hn, by simp [hid]⟩
    · exact ⟨m, hm, by simp [hid]⟩

/-- A layer written over itself changes nothing. -/
theorem setLayer_self (hnodup : (e.layers.map Layer.id).Nodup) (hl : l ∈ e.layers) :
    e.setLayer l = e := by
  have hmap : (e.layers.map fun m => if m.id = l.id then l else m) = e.layers.map id := by
    refine List.map_congr_left fun m hm => ?_
    split
    · next hid => exact List.inj_on_of_nodup_map hnodup hl hm hid.symm
    · rfl
  rw [setLayer, hmap, List.map_id]

/-- The layer written over is found where the old one was, and all others stay. -/
theorem layer?_setLayer (hnodup : (e.layers.map Layer.id).Nodup) {n : Layer} (hn : n ∈ e.layers)
    (hid : l.id = n.id) (id : LayerId) :
    (e.setLayer l).layer? id = if id = l.id then some l else e.layer? id := by
  refine Option.ext fun m => ?_
  rw [layer?_eq_some_iff (by simpa using hnodup), mem_setLayer]
  split
  · grind
  · rw [layer?_eq_some_iff hnodup]
    grind

end Layers

/-! ## The agreement of both sides -/

/-- Editor and canvas agree. -/
structure InStep (e : Editor) : Prop where
  ids_nodup : (e.layers.map Layer.id).Nodup
  /-- Identifiers that will be given are new. -/
  id_le_lastId : ∀ l ∈ e.layers, l.id.val ≤ e.lastId
  handles_nodup : (e.layers.map Layer.handle).Nodup
  /-- The objects are those of the layers. -/
  handles_perm : e.canvas.handles.Perm (e.layers.map Layer.handle)
  /-- Handles that will be given are new. -/
  handle_le_lastHandle : ∀ h ∈ e.canvas.handles, h.val ≤ e.canvas.lastHandle
  object?_eq : ∀ l ∈ e.layers, ∃ g, e.canvas.object? l.handle = some (l.objectAt g)
  stacking_eq : e.canvas.stacking = e.layers.map Layer.handle
  /-- The active object is that of the selected layer. -/
  selection : e.selected = none ∧ e.canvas.active = none ∨
    ∃ l ∈ e.layers, e.selected = some l.id ∧ e.canvas.active = some l.handle
  /-- The editor listens to the canvas. -/
  listener_lt : e.listener < e.canvas.listeners

namespace InStep

variable {e : Editor} {l m : Layer} {h : Handle}

/-- A new editor is in step with its canvas. -/
theorem new (config : EditorConfig) : (Editor.new config).InStep where
  ids_nodup := .nil
  id_le_lastId := List.forall_mem_nil _
  handles_nodup := .nil
  handles_perm := .nil
  handle_le_lastHandle := List.forall_mem_nil _
  object?_eq := List.forall_mem_nil _
  stacking_eq := rfl
  selection := .inl ⟨rfl, rfl⟩
  listener_lt := Nat.zero_lt_one

theorem layer?_eq (he : e.InStep) (hl : l ∈ e.layers) : e.layer? l.id = some l :=
  (layer?_eq_some_iff he.ids_nodup).2 ⟨hl, rfl⟩

theorem eq_of_id_eq (he : e.InStep) (hl : l ∈ e.layers) (hm : m ∈ e.layers) (h : l.id = m.id) :
    l = m :=
  List.inj_on_of_nodup_map he.ids_nodup hl hm h

theorem eq_of_handle_eq (he : e.InStep) (hl : l ∈ e.layers) (hm : m ∈ e.layers)
    (h : l.handle = m.handle) : l = m :=
  List.inj_on_of_nodup_map he.handles_nodup hl hm h

theorem canvas_handles_nodup (he : e.InStep) : e.canvas.handles.Nodup :=
  he.handles_perm.nodup_iff.2 he.handles_nodup

theorem handle_mem (he : e.InStep) (hl : l ∈ e.layers) : l.handle ∈ e.canvas.handles :=
  he.handles_perm.mem_iff.2 (List.mem_map_of_mem hl)

/-- Every object on the canvas belongs to a layer. -/
theorem exists_layer_of_mem_handles (he : e.InStep) (hh : h ∈ e.canvas.handles) :
    ∃ l ∈ e.layers, l.handle = h :=
  List.mem_map.1 (he.handles_perm.mem_iff.1 hh)

/-- The live handles are those of the layers. -/
theorem isLive_iff (he : e.InStep) : e.canvas.isLive h = true ↔ ∃ l ∈ e.layers, l.handle = h := by
  rw [Canvas.isLive_iff, he.handles_perm.mem_iff, List.mem_map]

/-- The active object is that of the selected layer. -/
theorem active_eq (he : e.InStep) :
    e.canvas.active = (e.selected.bind e.layer?).map Layer.handle := by
  rcases he.selection with ⟨hselected, hactive⟩ | ⟨l, hl, hselected, hactive⟩
  · rw [hselected, hactive]
    rfl
  · rw [hselected, hactive, Option.bind_some, he.layer?_eq hl]
    rfl

theorem active_eq_none_iff (he : e.InStep) : e.canvas.active = none ↔ e.selected = none := by
  rcases he.selection with ⟨hselected, hactive⟩ | ⟨l, -, hselected, hactive⟩
  · simp [hselected, hactive]
  · simp [hselected, hactive]

/-- A selection names a layer. -/
theorem exists_layer_of_selected (he : e.InStep) {id : LayerId} (hid : e.selected = some id) :
    ∃ l ∈ e.layers, l.id = id := by
  rcases he.selection with ⟨hselected, -⟩ | ⟨l, hl, hselected, -⟩
  · rw [hselected] at hid
    cases hid
  · exact ⟨l, hl, Option.some.inj (hselected.symm.trans hid)⟩

/-- Every object shows its layer. -/
theorem exists_object (he : e.InStep) (hl : l ∈ e.layers) :
    ∃ o, e.canvas.object? l.handle = some o ∧ o.kind = l.kind ∧ o.payload = l.payload ∧
      o.visible = l.visible ∧ o.selectable = !l.locked := by
  obtain ⟨g, hg⟩ := he.object?_eq l hl
  exact ⟨l.objectAt g, hg, rfl, rfl, rfl, rfl⟩

/-- The geometry of every layer is found. -/
theorem geometry_eq (he : e.InStep) (hl : l ∈ e.layers) :
    ∃ g, e.canvas.object? l.handle = some (l.objectAt g) ∧ e.geometry l.id = .ok g := by
  obtain ⟨g, hg⟩ := he.object?_eq l hl
  refine ⟨g, hg, ?_⟩
  simp only [geometry, requireLayer, he.layer?_eq hl, ok_bind, Canvas.geometry?, hg]
  rfl

end InStep

/-! ## Changes -/

/-- Select a layer, or none. -/
def selecting (e : Editor) (l? : Option Layer) : Editor :=
  { e with selected := l?.map Layer.id, canvas := e.canvas.setActive (l?.map Layer.handle) }

/-- The layer that comes next, with a content. -/
def nextLayer (e : Editor) (payload : Payload) : Layer where
  id := ⟨e.lastId + 1⟩
  name := payload.kind.label ++ toString (e.named payload.kind + 1)
  measure := Catalog.defaultFor? payload.kind
  payload := payload
  handle := ⟨e.canvas.lastHandle + 1⟩

/-- Put a new layer on top. -/
def adding (e : Editor) (payload : Payload) (geometry : Geometry) : Editor :=
  { e with
    canvas := (e.canvas.add payload.kind geometry payload).2
    lastId := e.lastId + 1
    named := fun k => if k = payload.kind then e.named payload.kind + 1 else e.named k
    layers := e.layers ++ [e.nextLayer payload] }

/-- Put a new layer on top and select it. -/
def inserting (e : Editor) (payload : Payload) (geometry : Geometry) : Editor :=
  (e.adding payload geometry).selecting (some (e.nextLayer payload))

/-- Take a layer away. -/
def without (e : Editor) (l : Layer) : Editor :=
  { e with
    layers := e.layers.filter fun m => m.id ≠ l.id
    selected := e.selected.filter (· ≠ l.id)
    canvas := (e.canvas.remove l.handle).2 }

/-- Bring the layers into another order. -/
def ordered (e : Editor) (layers : List Layer) : Editor :=
  { e with layers, canvas := e.canvas.restack (layers.map Layer.handle) }

/-- Write a layer over the one with its identifier, with another geometry if there is one. -/
def writing (e : Editor) (l : Layer) (placement : Option Geometry) : Editor :=
  { e.setLayer l with
    canvas := e.canvas.change l.handle fun o => l.objectAt (placement.getD o.geometry)
    revision := e.revision + placement.toList.length }

namespace InStep

variable {e : Editor} {l l' : Layer} {h : Handle}

theorem selecting (he : e.InStep) {l? : Option Layer} (hl : ∀ l, l? = some l → l ∈ e.layers) :
    (e.selecting l?).InStep where
  __ := he
  selection := by
    cases l? with
    | none => exact .inl ⟨rfl, rfl⟩
    | some l =>
      have hmem := hl l rfl
      exact .inr ⟨l, hmem, rfl, Canvas.active_setActive_some (he.handle_mem hmem)⟩

/-- The object of a layer that comes next is new. -/
theorem nextLayer_handle_not_mem (he : e.InStep) (payload : Payload) :
    (e.nextLayer payload).handle ∉ e.canvas.handles := by
  intro hmem
  have hle := he.handle_le_lastHandle _ hmem
  simp only [nextLayer] at hle
  omega

theorem nextLayer_id_ne (he : e.InStep) (payload : Payload) (hl : l ∈ e.layers) :
    l.id ≠ (e.nextLayer payload).id := by
  intro heq
  have hle := he.id_le_lastId l hl
  simp only [heq, nextLayer] at hle
  omega

theorem adding (he : e.InStep) (payload : Payload) (geometry : Geometry) :
    (e.adding payload geometry).InStep where
  ids_nodup := by
    rw [Editor.adding, List.map_append, List.map_singleton]
    refine he.ids_nodup.append (List.nodup_singleton _) ?_
    rw [List.disjoint_singleton, List.mem_map]
    rintro ⟨l, hl, heq⟩
    exact he.nextLayer_id_ne payload hl heq
  id_le_lastId l hl := by
    rcases List.mem_append.1 hl with hl | hl
    · exact Nat.le_succ_of_le (he.id_le_lastId l hl)
    · rw [List.mem_singleton.1 hl]
      exact Nat.le_refl _
  handles_nodup := by
    rw [Editor.adding, List.map_append, List.map_singleton]
    refine he.handles_nodup.append (List.nodup_singleton _) ?_
    rw [List.disjoint_singleton, ← he.handles_perm.mem_iff]
    exact he.nextLayer_handle_not_mem payload
  handles_perm := by
    rw [Editor.adding, List.map_append, List.map_singleton, Canvas.handles_add]
    exact he.handles_perm.append_right _
  handle_le_lastHandle h hh := by
    rw [Editor.adding, Canvas.handles_add] at hh
    rcases List.mem_append.1 hh with hh | hh
    · exact Nat.le_succ_of_le (he.handle_le_lastHandle h hh)
    · rw [List.mem_singleton.1 hh]
      exact Nat.le_refl _
  object?_eq l hl := by
    have hadd := e.canvas.object?_add payload.kind geometry payload
    rcases List.mem_append.1 hl with hl | hl
    · obtain ⟨g, hg⟩ := he.object?_eq l hl
      refine ⟨g, (hadd l.handle).trans ?_⟩
      rw [hg, Option.some_or]
    · have hnew := Canvas.object?_eq_none_iff.2 (he.nextLayer_handle_not_mem payload)
      rw [List.mem_singleton.1 hl]
      refine ⟨geometry, (hadd _).trans ?_⟩
      rw [hnew]
      exact if_pos rfl
  stacking_eq := by
    rw [Editor.adding, List.map_append, List.map_singleton, ← he.stacking_eq]
    rfl
  selection := by
    rcases he.selection with ⟨hselected, hactive⟩ | ⟨l, hl, hselected, hactive⟩
    · exact .inl ⟨hselected, hactive⟩
    · exact .inr ⟨l, List.mem_append_left _ hl, hselected, hactive⟩
  listener_lt := he.listener_lt

theorem inserting (he : e.InStep) (payload : Payload) (geometry : Geometry) :
    (e.inserting payload geometry).InStep := by
  refine (he.adding payload geometry).selecting fun l hl => ?_
  rw [← Option.some.inj hl]
  exact List.mem_append_right _ (List.mem_singleton_self _)

/-- The layers left behind have the handles left behind. -/
theorem map_handle_filter (he : e.InStep) (hl : l ∈ e.layers) :
    (e.layers.filter fun m => m.id ≠ l.id).map Layer.handle =
      (e.layers.map Layer.handle).filter (· ≠ l.handle) := by
  rw [List.filter_map]
  refine congrArg (List.map Layer.handle) (List.filter_congr fun m hm => ?_)
  have hiff : m.id = l.id ↔ m.handle = l.handle :=
    ⟨fun h => congrArg Layer.handle (he.eq_of_id_eq hm hl h),
      fun h => congrArg Layer.id (he.eq_of_handle_eq hm hl h)⟩
  simpa using hiff

theorem without (he : e.InStep) (hl : l ∈ e.layers) : (e.without l).InStep := by
  have hremove := Canvas.remove_of_mem (he.handle_mem hl)
  have hsublist : (e.without l).layers.Sublist e.layers := List.filter_sublist
  refine
    { ids_nodup := he.ids_nodup.sublist (hsublist.map _)
      id_le_lastId := fun m hm => he.id_le_lastId m (hsublist.subset hm)
      handles_nodup := he.handles_nodup.sublist (hsublist.map _)
      handles_perm := ?_
      handle_le_lastHandle := ?_
      object?_eq := ?_
      stacking_eq := ?_
      selection := ?_
      listener_lt := ?_ }
  · rw [Editor.without, Canvas.handles_remove, he.map_handle_filter hl]
    exact he.handles_perm.filter _
  · intro h hh
    rw [Editor.without, Canvas.handles_remove] at hh
    simpa [Editor.without, hremove] using he.handle_le_lastHandle h (List.mem_filter.1 hh).1
  · -- A layer that is left has another object than the one that was removed.
    intro m hm
    obtain ⟨g, hg⟩ := he.object?_eq m (hsublist.subset hm)
    have hne : m.handle ≠ l.handle := fun heq => by
      have hid := (List.mem_filter.1 hm).2
      simp [he.eq_of_handle_eq (hsublist.subset hm) hl heq] at hid
    refine ⟨g, (e.canvas.object?_remove l.handle m.handle).trans ?_⟩
    rw [if_neg hne, hg]
  · rw [Editor.without, he.map_handle_filter hl, hremove, he.stacking_eq]
  · -- Both sides lose their selection together: identifiers and handles are told apart alike.
    simp only [Editor.without, hremove]
    rcases he.selection with ⟨hselected, hactive⟩ | ⟨m, hm, hselected, hactive⟩
    · exact .inl ⟨by simp [hselected], by simp [hactive]⟩
    · by_cases heq : m = l
      · exact .inl ⟨by simp [hselected, heq], by simp [hactive, heq]⟩
      · have hid : m.id ≠ l.id := mt (he.eq_of_id_eq hm hl) heq
        have hhandle : m.handle ≠ l.handle := mt (he.eq_of_handle_eq hm hl) heq
        refine .inr ⟨m, List.mem_filter.2 ⟨hm, by simpa using hid⟩, ?_, ?_⟩
        · simp [hselected, hid]
        · simp [hactive, hhandle]
  · simpa [Editor.without, hremove] using he.listener_lt

theorem ordered (he : e.InStep) {layers : List Layer} (hperm : layers.Perm e.layers) :
    (e.ordered layers).InStep where
  ids_nodup := (hperm.map _).nodup_iff.2 he.ids_nodup
  id_le_lastId l hl := he.id_le_lastId l (hperm.mem_iff.1 hl)
  handles_nodup := (hperm.map _).nodup_iff.2 he.handles_nodup
  handles_perm := he.handles_perm.trans (hperm.map _).symm
  handle_le_lastHandle := he.handle_le_lastHandle
  object?_eq l hl := he.object?_eq l (hperm.mem_iff.1 hl)
  stacking_eq := by
    refine Canvas.stacking_restack fun h hh => ?_
    obtain ⟨l, hl, rfl⟩ := List.mem_map.1 hh
    exact he.handle_mem (hperm.mem_iff.1 hl)
  selection := by
    rcases he.selection with ⟨hselected, hactive⟩ | ⟨l, hl, hselected, hactive⟩
    · exact .inl ⟨hselected, hactive⟩
    · exact .inr ⟨l, hperm.mem_iff.2 hl, hselected, hactive⟩
  listener_lt := he.listener_lt

theorem map_handle_setLayer (he : e.InStep) (hl : l ∈ e.layers) (hid : l'.id = l.id)
    (hhandle : l'.handle = l.handle) :
    (e.setLayer l').layers.map Layer.handle = e.layers.map Layer.handle := by
  rw [setLayer, List.map_map]
  refine List.map_congr_left fun m hm => ?_
  by_cases heq : m.id = l'.id
  · rw [Function.comp_apply, if_pos heq, hhandle, he.eq_of_id_eq hm hl (heq.trans hid)]
  · rw [Function.comp_apply, if_neg heq]

theorem writing (he : e.InStep) (hl : l ∈ e.layers) (hid : l'.id = l.id)
    (hhandle : l'.handle = l.handle) (placement : Option Geometry) :
    (e.writing l' placement).InStep := by
  have hids := e.map_id_setLayer l'
  have hhandles := he.map_handle_setLayer hl hid hhandle
  have hold : ∀ m ∈ e.layers, m.id ≠ l'.id → m.handle ≠ l'.handle := by
    intro m hm hne heq
    exact hne (by rw [hid, he.eq_of_handle_eq hm hl (heq.trans hhandle)])
  have hmem : ∀ m ∈ (e.setLayer l').layers, m = l' ∨ m ∈ e.layers ∧ m.id ≠ l'.id := by
    intro m hm
    exact (mem_setLayer.1 hm).imp_left And.left
  refine
    { ids_nodup := hids.symm ▸ he.ids_nodup
      id_le_lastId := ?_
      handles_nodup := hhandles.symm ▸ he.handles_nodup
      handles_perm := ?_
      handle_le_lastHandle := ?_
      object?_eq := ?_
      stacking_eq := he.stacking_eq.trans hhandles.symm
      selection := ?_
      listener_lt := he.listener_lt }
  · intro m hm
    rcases hmem m hm with rfl | ⟨hm, -⟩
    · exact hid ▸ he.id_le_lastId l hl
    · exact he.id_le_lastId m hm
  · rw [Editor.writing, Canvas.handles_change, hhandles]
    exact he.handles_perm
  · intro h hh
    rw [Editor.writing, Canvas.handles_change] at hh
    exact he.handle_le_lastHandle h hh
  · intro m hm
    have hchange := e.canvas.object?_change l'.handle m.handle fun o =>
      l'.objectAt (placement.getD o.geometry)
    rcases hmem m hm with rfl | ⟨hm, hne⟩
    · obtain ⟨g, hg⟩ := he.object?_eq l hl
      refine ⟨placement.getD g, hchange.trans ?_⟩
      rw [if_pos rfl, hhandle, hg]
      rfl
    · obtain ⟨g, hg⟩ := he.object?_eq m hm
      refine ⟨g, hchange.trans ?_⟩
      rw [if_neg (hold m hm hne), hg]
  · -- The selected layer may be the one written over; its object stays the active one.
    rcases he.selection with ⟨hselected, hactive⟩ | ⟨m, hm, hselected, hactive⟩
    · exact .inl ⟨hselected, hactive⟩
    · by_cases heq : m.id = l'.id
      · have hml : m = l := he.eq_of_id_eq hm hl (heq.trans hid)
        refine .inr ⟨l', mem_setLayer.2 (.inl ⟨rfl, m, hm, heq⟩), ?_, ?_⟩
        · rw [← heq, ← hselected]
          rfl
        · rw [hhandle, ← hml, ← hactive]
          rfl
      · exact .inr ⟨m, mem_setLayer.2 (.inr ⟨hm, heq⟩), hselected, hactive⟩

end InStep

end Editor

end WidgetSkin
