import WidgetSkin.Proofs.Editor.Assembly

/-!
# Replays on sheets

Every event does to an editor what it does to the sheet of the editor. So after every history the
design that is saved is the one that a replay of the history on a single list of records gives.

## Main statements

* `pushDown_eq`, `pullUp_eq` — neighbours exchanged by place and by property.
* `Editor.InStep.sheet_settled` — one operation.
* `Editor.InStep.sheet_after` — one event.
* `Editor.sheet_run` — every history.
* `Editor.snapshot_run` — what is saved after a history.
-/

namespace WidgetSkin

/-! ## Neighbours -/

section Neighbours

variable {α β : Type}

theorem map_pushDown (has : α → Bool) (f : β → α) (bs : List β) :
    (pushDown (fun b => has (f b)) bs).map f = pushDown has (bs.map f) := by
  fun_induction pushDown (fun b => has (f b)) bs with
  | case1 a b rest h => simp [pushDown, h]
  | case2 a b rest h ih => simp [pushDown, h, ih]
  | case3 bs h =>
    match bs with
    | [] | [_] => rfl
    | a :: b :: rest => exact absurd rfl (h a b rest)

theorem map_pullUp (has : α → Bool) (f : β → α) (bs : List β) :
    (pullUp (fun b => has (f b)) bs).map f = pullUp has (bs.map f) := by
  fun_induction pullUp (fun b => has (f b)) bs with
  | case1 a b rest h => simp [pullUp, h]
  | case2 a b rest h ih => simp [pullUp, h, ih]
  | case3 bs h =>
    match bs with
    | [] | [_] => rfl
    | a :: b :: rest => exact absurd rfl (h a b rest)

variable {has : α → Bool}

/-- The item pushed down is found first, and exchanged unless it is the last. -/
theorem pushDown_eq (as : List α) :
    pushDown has as =
      if as.findIdx has + 1 < as.length then exchangeAt (as.findIdx has) as else as := by
  fun_induction pushDown has as with
  | case1 a b rest h => simp [List.findIdx_cons, h, exchangeAt]
  | case2 a b rest h ih =>
    rw [ih]
    simp only [List.findIdx_cons (b := a), h, cond_false, List.length_cons (a := a),
      Nat.add_lt_add_iff_right, exchangeAt]
    split <;> rfl
  | case3 as h =>
    match as with
    | [] | [_] => simp
    | a :: b :: rest => exact absurd rfl (h a b rest)

theorem pushDown_eq_self {as : List α} (h : ∀ a ∈ as, has a = false) : pushDown has as = as := by
  rw [pushDown_eq, List.findIdx_eq_length_of_false h, if_neg (by omega)]

theorem pullUp_eq_self {as : List α} (h : ∀ a ∈ as.tail, has a = false) : pullUp has as = as := by
  fun_induction pullUp has as with
  | case1 a b rest hb => simp [h b (by simp)] at hb
  | case2 a b rest hb ih =>
    rw [ih fun c hc => h c (List.mem_cons_of_mem b hc)]
  | case3 => rfl

/-- The item pulled up is found first, and exchanged unless it is the first, if no other item has
the property. -/
theorem pullUp_eq {as : List α} (honce : as.Pairwise fun a b => has a → has b = false) :
    pullUp has as =
      if 0 < as.findIdx has then exchangeAt (as.findIdx has - 1) as else as := by
  induction as with
  | nil => rfl
  | cons a as ih =>
    obtain ⟨hfirst, hrest⟩ := List.pairwise_cons.1 honce
    cases ha : has a with
    | true =>
      have hself : pullUp has (a :: as) = a :: as := pullUp_eq_self fun b hb => hfirst b hb ha
      rw [hself, List.findIdx_cons, ha]
      rfl
    | false =>
      match as, ih hrest with
      | [], _ => simp [pullUp, List.findIdx_cons, ha, exchangeAt]
      | b :: rest, ih =>
        cases hb : has b with
        | true => simp [pullUp, List.findIdx_cons, ha, hb, exchangeAt]
        | false =>
          simp only [List.findIdx_cons, hb, cond_false, Nat.zero_lt_succ, if_true,
            Nat.add_sub_cancel] at ih
          simp [pullUp, List.findIdx_cons, ha, hb, exchangeAt, ih]

end Neighbours

/-! ## One operation -/

namespace Sheet

variable {p : Sheet} {has has' : Record → Bool} {f f' : Record → Record}

theorem rewrite_congr
    (h : ∀ r ∈ p.records, (if has r then f r else r) = if has' r then f' r else r) :
    p.rewrite has f = p.rewrite has' f' := by
  rw [rewrite, rewrite, List.map_congr_left h]

theorem rewrite_eq_self (h : ∀ r ∈ p.records, has r → f r = r) : p.rewrite has f = p := by
  have hmap : (p.records.map fun r => if has r then f r else r) = p.records.map id := by
    refine List.map_congr_left fun r hr => ?_
    split
    · next hhas => exact h r hr hhas
    · rfl
  rw [rewrite, hmap, List.map_id]

end Sheet

namespace EditorOp

/-- What an operation leaves of an editor, whether it fails or not. -/
def settled (s : Surroundings) (e : Editor) (op : EditorOp) : Editor :=
  match op.outcome s e with
  | .ok result => result.2
  | .error _ => op.failed e

theorem settled_of_ok {s : Surroundings} {e e' : Editor} {op : EditorOp} {answer : Answer}
    (h : op.outcome s e = .ok (answer, e')) : op.settled s e = e' := by
  rw [settled, h]

theorem settled_of_error {s : Surroundings} {e : Editor} {op : EditorOp} {fault : Fault}
    (h : op.outcome s e = .error fault) : op.settled s e = op.failed e := by
  rw [settled, h]

end EditorOp

namespace Editor.InStep

variable {e : Editor} {s : Surroundings} {l : Layer}

theorem step_editor (he : e.InStep) (s : Surroundings) (op : EditorOp) :
    (e.step s op).editor = op.settled s e := by
  unfold EditorOp.settled
  cases houtcome : op.outcome s e with
  | error fault => rw [Editor.step_of_error he houtcome]
  | ok result => rw [Editor.step_of_ok he houtcome]

theorem sheet_created (he : e.InStep) (new? : Option Creation) :
    (e.created new?).2.sheet = e.sheet.append new? := by
  cases new? with
  | none => rfl
  | some new => exact he.sheet_inserting new

/-- A creation that may fail or come to nothing appends what comes of it. -/
theorem sheet_creating (he : e.InStep) (r : Except Fault (Option Creation)) :
    (match e.created <$> r with
      | .ok result => result.2
      | .error _ => e).sheet = e.sheet.append r.toOption.join := by
  cases r with
  | error fault => rfl
  | ok new? => exact he.sheet_created new?

/-- A new order of the layers is accepted if it names each of them once. -/
theorem sheet_reorder (he : e.InStep) (order : List LayerId) :
    (EditorOp.settled s e (.reorder order)).sheet = e.sheet.apply s (.reorder order) := by
  have horder : e.sheet.order = e.order := List.map_map
  rw [Sheet.apply, horder]
  by_cases hperm : order.Perm e.order
  · rw [if_pos hperm, EditorOp.settled_of_ok (EditorOp.outcome_reorder_of_perm he hperm s),
      Editor.arranged, sheet_ordered, List.map_filterMap]
    simp only [record?_sheet]
  · obtain ⟨fault, hrefused⟩ := EditorOp.outcome_reorder_of_not_perm he hperm s
    rw [if_neg hperm, EditorOp.settled_of_error hrefused]
    rfl

theorem moved_eq (he : e.InStep) (id : LayerId) (direction : Direction) :
    e.moved id direction =
      match direction with
      | .up => pullUp (fun l => l.id = id) e.layers
      | .down => pushDown (fun l => l.id = id) e.layers := by
  cases direction with
  | down => exact (pushDown_eq e.layers).symm
  | up =>
    refine (pullUp_eq ?_).symm
    refine (List.pairwise_map.1 he.ids_nodup).imp fun hne h => ?_
    simp only [decide_eq_true_eq] at h
    simpa [h] using Ne.symm hne

theorem sheet_move (he : e.InStep) (id : LayerId) (direction : Direction) :
    (EditorOp.settled s e (.move id direction)).sheet = e.sheet.apply s (.move id direction) := by
  have hmap : (e.moved id direction).map e.recordOf =
      match direction with
      | .up => pullUp (fun r => r.id = id) e.sheet.records
      | .down => pushDown (fun r => r.id = id) e.sheet.records := by
    rw [he.moved_eq]
    cases direction with
    | up => exact map_pullUp (fun r : Record => r.id = id) e.recordOf e.layers
    | down => exact map_pushDown (fun r : Record => r.id = id) e.recordOf e.layers
  cases hfound : e.layer? id with
  | some l =>
    have houtcome : EditorOp.outcome s e (.move id direction) =
        .ok (.nothing, e.ordered (e.moved id direction)) := by
      rw [EditorOp.outcome, requireLayer_eq_ok_iff.2 hfound]
      rfl
    rw [EditorOp.settled_of_ok houtcome, sheet_ordered, hmap]
    cases direction <;> rfl
  | none =>
    -- An unknown layer has no neighbours: nothing is exchanged.
    have houtcome : EditorOp.outcome s e (.move id direction) = .error (.unknownLayer id) := by
      rw [EditorOp.outcome, requireLayer, hfound]
      rfl
    have hno : ∀ r ∈ e.sheet.records, decide (r.id = id) = false := fun r hr =>
      decide_eq_false (id_ne_of_layer? hfound r hr)
    rw [EditorOp.settled_of_error houtcome]
    cases direction with
    | up => rw [Sheet.apply, pullUp_eq_self fun r hr => hno r (List.mem_of_mem_tail hr)]; rfl
    | down => rw [Sheet.apply, pushDown_eq_self hno]; rfl

/-- An edit that is accepted for its data rewrites the record of its layer. -/
theorem sheet_edit_of_mem (he : e.InStep) {l : Layer} (hl : l ∈ e.layers) {change : LayerEdit}
    (hcheck : change.check = .ok ()) :
    (EditorOp.settled s e (.edit l.id change)).sheet =
      e.sheet.rewrite (fun r => r.id = l.id) fun r => (change.revise? s r).getD r := by
  obtain ⟨g, -, hg⟩ := he.geometry_eq hl
  have hrecord := he.eq_recordAt hl hg
  have hrevise := change.revise?_recordAt s l g
  have houtcome : EditorOp.outcome s e (.edit l.id change) =
      change.rewrite s l g >>= fun c => .ok (c.answer, e.writing c.layer c.placement) := by
    rw [EditorOp.outcome, LayerEdit.outcome, hcheck,
      requireLayer_eq_ok_iff.2 (he.layer?_eq hl), hg]
    rfl
  cases hc : change.rewrite s l g with
  | error fault =>
    rw [hc] at houtcome hrevise
    rw [EditorOp.settled_of_error houtcome, Sheet.rewrite_eq_self]
    · rfl
    · intro r hr hid
      rw [hrecord r hr (of_decide_eq_true hid), hrevise]
      rfl
  | ok c =>
    rw [hc] at houtcome hrevise
    have hkeeps := LayerEdit.rewrite_keeps hc
    rw [EditorOp.settled_of_ok houtcome, he.sheet_writing hl hkeeps.id_eq hkeeps.handle_eq]
    refine Sheet.rewrite_congr fun r hr => ?_
    split
    · next hid =>
      rw [hrecord r hr (of_decide_eq_true hid), hrevise]
      rfl
    · rfl

theorem sheet_edit (he : e.InStep) (id : LayerId) (change : LayerEdit) :
    (EditorOp.settled s e (.edit id change)).sheet = e.sheet.apply s (.edit id change) := by
  cases hcheck : change.check with
  | error fault =>
    have houtcome : EditorOp.outcome s e (.edit id change) = .error fault := by
      rw [EditorOp.outcome, LayerEdit.outcome, hcheck]
      rfl
    rw [EditorOp.settled_of_error houtcome, Sheet.apply, hcheck]
    rfl
  | ok u =>
    rw [Sheet.apply, hcheck, Except.isOk, Except.toBool, if_pos rfl]
    cases hfound : e.layer? id with
    | some l =>
      obtain ⟨hl, rfl⟩ := mem_of_layer? hfound
      exact he.sheet_edit_of_mem hl hcheck
    | none =>
      have houtcome : EditorOp.outcome s e (.edit id change) = .error (.unknownLayer id) := by
        rw [EditorOp.outcome, LayerEdit.outcome, hcheck, requireLayer, hfound]
        rfl
      rw [EditorOp.settled_of_error houtcome, Sheet.rewrite_eq_self]
      · rfl
      · intro r hr hid
        exact absurd (of_decide_eq_true hid) (id_ne_of_layer? hfound r hr)

theorem sheet_settled (he : e.InStep) (s : Surroundings) (op : EditorOp) :
    (op.settled s e).sheet = e.sheet.apply s op := by
  cases op with
  | createText point words => exact he.sheet_inserting _
  | createBar point => exact he.sheet_inserting _
  | createShape outline point => exact he.sheet_inserting _
  | createImage point => exact he.sheet_creating _
  | createRotator point => exact he.sheet_creating _
  | create kind point => exact he.sheet_creating _
  | place point =>
    have hselect : Editor.InStep { e with tool := .select } := { he with }
    have htool : e.sheet.tool = e.tool := rfl
    simp only [EditorOp.settled, EditorOp.outcome, Sheet.apply, EditorOp.creation?, htool]
    cases hkind : e.tool.placementKind? with
    | some kind => exact hselect.sheet_creating (e.config.creation s point kind)
    | none =>
      have hnone : e.tool = .select := by cases h : e.tool <;> simp_all [Tool.placementKind?]
      exact Sheet.ext rfl rfl rfl hnone rfl rfl rfl
  | delete id =>
    simp only [EditorOp.settled, EditorOp.outcome, Sheet.apply]
    cases hfound : e.layer? id with
    | some l =>
      obtain ⟨hl, rfl⟩ := mem_of_layer? hfound
      exact he.sheet_without hl
    | none =>
      have hrecords : e.sheet.records.filter (fun r => r.id ≠ id) = e.sheet.records :=
        List.filter_eq_self.2 fun r hr => decide_eq_true (id_ne_of_layer? hfound r hr)
      exact Sheet.ext rfl rfl hrecords.symm rfl rfl rfl rfl
  | reorder order => exact he.sheet_reorder order
  | move id direction => exact he.sheet_move id direction
  | edit id change => exact he.sheet_edit id change
  | select id =>
    simp only [EditorOp.settled, EditorOp.outcome]
    cases e.layer? id <;> rfl
  | setBackgroundSize width height =>
    simp only [EditorOp.settled, EditorOp.outcome, Sheet.apply]
    cases !(width.isFinite && height.isFinite) || decide (width ≤ 0) || decide (height ≤ 0) <;> rfl
  | setTool _ | clearSelection | setBackgroundPosition _ | setBackdropColor _ => rfl

/-- What an event does to an editor, it does to its sheet. -/
theorem sheet_after (he : e.InStep) (event : Event) :
    (e.after event).sheet = e.sheet.after event := by
  cases event with
  | operation s op =>
    rw [after, he.step_editor]
    exact he.sheet_settled s op
  | drag h point =>
    change (e.observe (.drag h point)).sheet =
      e.sheet.rewrite (fun r => r.handle = h) (Record.place · fun g => { g with position := point })
    by_cases hh : h ∈ e.canvas.handles
    · obtain ⟨l, hl, rfl⟩ := he.exists_layer_of_mem_handles hh
      obtain ⟨g, -, hg⟩ := he.geometry_eq hl
      rw [he.observe_drag_of_mem hl hg, he.sheet_writing hl rfl rfl]
      refine Sheet.rewrite_congr fun r hr => ?_
      obtain ⟨m, hm, rfl⟩ := List.mem_map.1 hr
      -- The record under the handle is that of the layer.
      by_cases hid : m.id = l.id
      · rw [he.eq_recordAt hl hg _ hr hid]
        simp [Layer.recordAt, Record.place]
      · have hne : m.handle ≠ l.handle := fun heq =>
          hid (congrArg Layer.id (he.eq_of_handle_eq hm hl heq))
        have hhandle : (e.recordOf m).handle = m.handle := rfl
        simp [hid, hhandle, hne]
    · rw [observe_drag_of_not_mem hh, Sheet.rewrite_eq_self]
      intro r hr hhandle
      obtain ⟨l, hl, rfl⟩ := List.mem_map.1 hr
      exact absurd (of_decide_eq_true hhandle ▸ he.handle_mem hl) hh

end Editor.InStep

/-! ## Every history -/

namespace Editor

variable {config : EditorConfig} {events : List Event}

/-- An editor after a history is, put together, the sheet after it. -/
theorem sheet_run (config : EditorConfig) (events : List Event) :
    ((Editor.new config).run events).sheet = (Sheet.new config).run events := by
  induction events using List.reverseRecOn with
  | nil => rfl
  | append_singleton events event ih =>
    rw [run_concat, (inStep_run config events).sheet_after, ih, Sheet.run_concat]

/-- What is saved after a history is what a replay on one list of records gives, layer by layer
and in the order of the layers. The records are the layers, each with the geometry that its
object has; none of them is lost, none comes twice, and none is left out for want of an
object. -/
theorem snapshot_run (config : EditorConfig) (events : List Event) :
    let e := (Editor.new config).run events
    let p := (Sheet.new config).run events
    e.snapshot.layers = p.records.map Record.snapshot ∧
    e.snapshot.background = p.background ∧
    e.layers = p.records.map Record.toLayer ∧
    (∀ r ∈ p.records, e.geometry r.id = .ok r.geometry) ∧
    e.order.Nodup ∧
    ∀ l ∈ e.layers, (e.snapshotOf? l).isSome = true := by
  intro e p
  have he : e.InStep := inStep_run config events
  have hsheet : e.sheet = p := sheet_run config events
  have hsnapshot : e.snapshot = p.snapshot := hsheet ▸ he.snapshot_eq
  have hgeometry : ∀ r ∈ p.records, e.geometry r.id = .ok r.geometry := by
    intro r hr
    rw [← hsheet] at hr
    obtain ⟨l, hl, rfl⟩ := List.mem_map.1 hr
    obtain ⟨g, -, hg⟩ := he.geometry_eq hl
    rw [recordOf_id, hg, he.recordOf_eq hl hg]
    rfl
  have hshown : ∀ l ∈ e.layers, (e.snapshotOf? l).isSome = true := by
    intro l hl
    obtain ⟨g, hobject, -⟩ := he.geometry_eq hl
    rw [snapshotOf?, Canvas.geometry?, hobject]
    rfl
  exact ⟨congrArg Snapshot.layers hsnapshot, congrArg Snapshot.background hsnapshot,
    hsheet ▸ e.map_toLayer_records.symm, hgeometry, he.ids_nodup, hshown⟩

end Editor

end WidgetSkin
