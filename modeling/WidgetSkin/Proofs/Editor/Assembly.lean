import WidgetSkin.Proofs.Editor.Sheet

/-!
# Editors put together

The fields of a layer lie in an editor and its geometry lies on the canvas. Put together they are
the records of a sheet. Every change that an editor in step with its canvas can make is, seen
there, a plain change of the sheet.

## Main definitions

* `Editor.sheet` — an editor with its layers and objects put together.

## Main statements

* `LayerEdit.revise?_recordAt` — an edit of a layer and its geometry is an edit of their record.
* `Editor.InStep.snapshot_eq` — what is saved is what is saved of the sheet.
* `Editor.InStep.sheet_inserting` and its kin — the changes.
-/

namespace WidgetSkin

/-! ## Sheets of editors -/

/-- An edit makes of a record what it makes of a layer and its geometry. -/
theorem LayerEdit.revise?_recordAt (s : Surroundings) (l : Layer) (g : Geometry)
    (change : LayerEdit) :
    change.revise? s (l.recordAt g) =
      (change.rewrite s l g).toOption.map fun c => c.layer.recordAt (c.placement.getD g) := by
  have hcontent : ∀ (expected : LayerKind) (f : Payload → Option Payload),
      (l.recordAt g).withContent? f = (LayerChange.ofContent l expected f).toOption.map
        fun c => c.layer.recordAt (c.placement.getD g) := by
    intro expected f
    cases hpayload : f l.payload <;>
      simp [Record.withContent?, LayerChange.ofContent, Layer.recordAt, hpayload, Except.toOption]
  cases change with
  | measure m =>
    change (applicable m l.kind).toOption.map _ = _
    rw [rewrite]
    cases applicable m l.kind <;> rfl
  | text _ | font _ | fontSize _ | textFill _ => exact hcontent .text _
  | barFill _ _ => exact hcontent .bar _
  | shapeFill _ => exact hcontent .shape _
  | imageSource path =>
    change (if l.kind.isRaster then _ else none) = _
    rw [rewrite, LayerChange.ofImage, Surroundings.imageSize]
    cases l.kind.isRaster with
    | false => rfl
    | true => cases s.imageSize? path <;> rfl
  | property name value =>
    rw [rewrite, LayerChange.ofNeedle]
    cases hpayload : l.payload with
    | rotator n =>
      simp only [revise?, Layer.recordAt, hpayload]
      cases n.setProperty name value with
      | error fault => rfl
      | ok turned =>
        by_cases hname : name = Needle.Property.startAngle.label <;>
          simp [hname, Except.toOption]
    | text _ | image _ | bar _ | shape _ =>
      simp [revise?, Layer.recordAt, hpayload, Except.toOption]
  | position _ | size _ | scale _ | angle _ | toggleVisibility | toggleLock => rfl

namespace Editor

/-- The record of a layer with the geometry of its object. -/
def recordOf (e : Editor) (l : Layer) : Record :=
  l.recordAt ((e.canvas.geometry? l.handle).getD default)

/-- An editor with its layers and objects put together. -/
def sheet (e : Editor) : Sheet where
  config := e.config
  background := e.background
  records := e.layers.map e.recordOf
  tool := e.tool
  lastId := e.lastId
  named := e.named
  lastHandle := e.canvas.lastHandle

@[simp] theorem recordOf_id (e : Editor) (l : Layer) : (e.recordOf l).id = l.id := rfl

theorem sheet_ordered (e : Editor) (layers : List Layer) :
    (e.ordered layers).sheet = { e.sheet with records := layers.map e.recordOf } := rfl

theorem map_toLayer_records (e : Editor) : e.sheet.records.map Record.toLayer = e.layers := by
  simp [sheet, Function.comp_def, recordOf, Layer.recordAt]

theorem record?_sheet (e : Editor) (id : LayerId) :
    e.sheet.record? id = (e.layer? id).map e.recordOf :=
  List.find?_map ..

theorem id_ne_of_layer? {e : Editor} {id : LayerId} (h : e.layer? id = none) :
    ∀ r ∈ e.sheet.records, r.id ≠ id := by
  intro r hr
  obtain ⟨l, hl, rfl⟩ := List.mem_map.1 hr
  exact layer?_eq_none_iff.1 h l hl

namespace InStep

variable {e : Editor} {l l' : Layer} {g : Geometry}

theorem recordOf_eq (he : e.InStep) (hl : l ∈ e.layers) (hg : e.geometry l.id = .ok g) :
    e.recordOf l = l.recordAt g := by
  rw [recordOf, Canvas.geometry?, he.object?_of_geometry hl hg]
  rfl

/-- There is one record with the identifier of a layer. -/
theorem eq_recordAt (he : e.InStep) (hl : l ∈ e.layers) (hg : e.geometry l.id = .ok g) :
    ∀ r ∈ e.sheet.records, r.id = l.id → r = l.recordAt g := by
  intro r hr hid
  obtain ⟨m, hm, rfl⟩ := List.mem_map.1 hr
  obtain rfl := he.eq_of_id_eq hm hl hid
  exact he.recordOf_eq hm hg

/-- What is saved of an editor is what is saved of its sheet. -/
theorem snapshot_eq (he : e.InStep) : e.snapshot = e.sheet.snapshot := by
  have hsnapshot : ∀ l ∈ e.layers, e.snapshotOf? l = some (e.recordOf l).snapshot := by
    intro l hl
    obtain ⟨g, hobject, hg⟩ := he.geometry_eq hl
    rw [he.recordOf_eq hl hg, snapshotOf?, Canvas.geometry?, hobject]
    rfl
  rw [snapshot, List.filterMap_congr hsnapshot, List.filterMap_eq_map', Sheet.snapshot, sheet,
    List.map_map]
  rfl

/-- Layers whose objects stay have the records that they had. -/
theorem recordOf_congr {e e' : Editor}
    (h : e'.canvas.object? l.handle = e.canvas.object? l.handle) :
    e'.recordOf l = e.recordOf l := by
  simp only [recordOf, Canvas.geometry?, h]

theorem sheet_inserting (he : e.InStep) (new : Creation) :
    (e.inserting new.payload new.geometry).sheet = e.sheet.append (some new) := by
  have hadd := e.canvas.object?_add new.payload.kind new.geometry new.payload
  have hold : ∀ l ∈ e.layers,
      (e.inserting new.payload new.geometry).recordOf l = e.recordOf l := by
    intro l hl
    obtain ⟨g, hobject, -⟩ := he.geometry_eq hl
    refine recordOf_congr ((hadd l.handle).trans ?_)
    rw [hobject, Option.some_or]
  have hnext : (e.inserting new.payload new.geometry).recordOf (e.nextLayer new.payload) =
      e.sheet.nextRecord new := by
    have hfree := Canvas.object?_eq_none_iff.2 (he.nextLayer_handle_not_mem new.payload)
    have hobject := hadd (e.nextLayer new.payload).handle
    rw [hfree, Option.none_or, nextLayer, if_pos rfl] at hobject
    have hgeometry : (e.inserting new.payload new.geometry).canvas.geometry?
        (e.nextLayer new.payload).handle = some new.geometry :=
      congrArg (Option.map CanvasObject.geometry) hobject
    rw [recordOf, hgeometry]
    rfl
  have hrecords : (e.inserting new.payload new.geometry).sheet.records =
      e.sheet.records ++ [e.sheet.nextRecord new] := by
    rw [← hnext]
    exact (List.map_append).trans (congrArg (· ++ _) (List.map_congr_left hold))
  have hnamed : (e.inserting new.payload new.geometry).named =
      fun kind => e.named kind + if kind = new.payload.kind then 1 else 0 := by
    funext kind
    change (if kind = new.payload.kind then _ else _) = _
    split
    · next heq => rw [heq]
    · rfl
  exact Sheet.ext rfl rfl hrecords rfl rfl hnamed rfl

theorem sheet_without (he : e.InStep) (hl : l ∈ e.layers) :
    (e.without l).sheet =
      { e.sheet with records := e.sheet.records.filter fun r => r.id ≠ l.id } := by
  have hrecords : (e.without l).sheet.records = e.sheet.records.filter fun r => r.id ≠ l.id := by
    rw [sheet, sheet, List.filter_map]
    refine List.map_congr_left fun m hm => ?_
    obtain ⟨hm, hne⟩ := List.mem_filter.1 hm
    have hhandle : m.handle ≠ l.handle := fun heq => by
      simp [he.eq_of_handle_eq hm hl heq] at hne
    exact recordOf_congr ((e.canvas.object?_remove l.handle m.handle).trans (if_neg hhandle))
  have hlast : (e.without l).canvas.lastHandle = e.canvas.lastHandle := by
    rw [Editor.without, Canvas.remove_of_mem (he.handle_mem hl)]
  exact Sheet.ext rfl rfl hrecords rfl rfl rfl hlast

theorem sheet_writing (he : e.InStep) (hl : l ∈ e.layers) (hid : l'.id = l.id)
    (hhandle : l'.handle = l.handle) (placement : Option Geometry) :
    (e.writing l' placement).sheet =
      e.sheet.rewrite (fun r => r.id = l.id) fun r => l'.recordAt (placement.getD r.geometry) := by
  have hchange := fun k => e.canvas.object?_change l'.handle k fun o =>
    l'.objectAt (placement.getD o.geometry)
  have hrecord : ∀ m ∈ e.layers,
      (e.writing l' placement).recordOf (if m.id = l'.id then l' else m) =
        if m.id = l.id then l'.recordAt (placement.getD (e.recordOf m).geometry)
        else e.recordOf m := by
    intro m hm
    rw [hid]
    by_cases heq : m.id = l.id
    · obtain rfl := he.eq_of_id_eq hm hl heq
      obtain ⟨g, hobject, hg⟩ := he.geometry_eq hm
      rw [← hhandle] at hobject
      have hnew := hchange l'.handle
      rw [if_pos rfl, hobject] at hnew
      rw [if_pos rfl, if_pos rfl, he.recordOf_eq hm hg]
      exact congrArg (fun o? : Option CanvasObject =>
        l'.recordAt ((o?.map CanvasObject.geometry).getD default)) hnew
    · have hne : m.handle ≠ l'.handle := fun h =>
        heq (congrArg Layer.id (he.eq_of_handle_eq hm hl (h.trans hhandle)))
      rw [if_neg heq, if_neg heq]
      exact recordOf_congr ((hchange m.handle).trans (if_neg hne))
  have hrecords : (e.writing l' placement).sheet.records =
      (e.sheet.rewrite (fun r => r.id = l.id) fun r =>
        l'.recordAt (placement.getD r.geometry)).records := by
    simp only [sheet, Sheet.rewrite, Editor.writing, setLayer, List.map_map]
    refine List.map_congr_left fun m hm => (hrecord m hm).trans ?_
    simp only [Function.comp_apply, decide_eq_true_eq]
    rfl
  exact Sheet.ext rfl rfl hrecords rfl rfl rfl rfl

end InStep

end Editor

end WidgetSkin
