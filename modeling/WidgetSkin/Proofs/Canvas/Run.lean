import WidgetSkin.Proofs.Canvas.Handles

/-!
# Runs of a canvas

Whoever works on a canvas may pass any handle and any stacking. A canvas stays sound under all
of it, and its listeners hear of the geometries that are written and of nothing else: all of
them, in the order in which they were added, once for every write.

## Main definitions

* `Canvas.run` — the canvas after some operations.
* `Canvas.writes` — the geometries that operations write.
* `Canvas.heard`, `Canvas.heardBy` — what all listeners hear, and what one of them hears.
* `Canvas.Sound` — handles, stacking and active object of a canvas fit each other.

## Main statements

* `Canvas.Sound.run` — every canvas stays sound.
* `Canvas.notices_step` — what an operation makes the listeners hear.
* `Canvas.heardBy_eq_writes`, `Canvas.heardBy_append_listen` — what one listener hears.
-/

namespace WidgetSkin

namespace Canvas

/-- The canvas after some operations. -/
def run (c : Canvas) (ops : List CanvasOp) : Canvas :=
  ops.foldl (fun c op => (c.step op).canvas) c

/-- The object that an operation gives another geometry, with that geometry. -/
def write? (c : Canvas) : CanvasOp → Option (Handle × Geometry)
  | .setGeometry h g => if c.isLive h then some (h, g) else none
  | .dragTo h p => (c.geometry? h).map fun g => (h, { g with position := p })
  | .add .. | .remove _ | .setPayload .. | .setVisible .. | .setSelectable .. | .restack _
  | .setActive _ | .listen => none

/-- The geometries that operations write, in their order. -/
def writes (c : Canvas) : List CanvasOp → List (Handle × Geometry)
  | [] => []
  | op :: ops => (c.write? op).toList ++ writes (c.step op).canvas ops

/-- What all listeners hear, in the order in which they hear it. -/
def heard (c : Canvas) : List CanvasOp → List Notice
  | [] => []
  | op :: ops => (c.step op).notices ++ heard (c.step op).canvas ops

/-- What one listener hears. -/
def heardBy (c : Canvas) (listener : Nat) (ops : List CanvasOp) : List (Handle × Geometry) :=
  ((c.heard ops).filter fun n => n.listener = listener).map fun n => (n.handle, n.geometry)

variable {c : Canvas} {h k : Handle} {o : CanvasObject} {op : CanvasOp} {n : Nat}

/-! ## Operations one after another -/

@[simp] theorem run_nil (c : Canvas) : c.run [] = c := rfl

theorem run_cons (c : Canvas) (op : CanvasOp) (ops : List CanvasOp) :
    c.run (op :: ops) = (c.step op).canvas.run ops := rfl

theorem run_append (c : Canvas) (first rest : List CanvasOp) :
    c.run (first ++ rest) = (c.run first).run rest :=
  List.foldl_append

theorem writes_append (c : Canvas) (first rest : List CanvasOp) :
    c.writes (first ++ rest) = c.writes first ++ (c.run first).writes rest := by
  induction first generalizing c with
  | nil => rfl
  | cons op first ih => rw [List.cons_append, writes, ih, writes, List.append_assoc, run_cons]

theorem heard_append (c : Canvas) (first rest : List CanvasOp) :
    c.heard (first ++ rest) = c.heard first ++ (c.run first).heard rest := by
  induction first generalizing c with
  | nil => rfl
  | cons op first ih => rw [List.cons_append, heard, ih, heard, List.append_assoc, run_cons]

theorem heardBy_append (c : Canvas) (n : Nat) (first rest : List CanvasOp) :
    c.heardBy n (first ++ rest) = c.heardBy n first ++ (c.run first).heardBy n rest := by
  simp only [heardBy, heard_append, List.filter_append, List.map_append]

/-! ## Soundness -/

/-- Handles, stacking and active object of a canvas fit each other. -/
structure Sound (c : Canvas) : Prop where
  handles_nodup : c.handles.Nodup
  /-- Handles that will be given are new. -/
  handle_le_lastHandle : ∀ h ∈ c.handles, h.val ≤ c.lastHandle
  stacking_live : ∀ h ∈ c.stacking, h ∈ c.handles
  active_live : ∀ h, c.active = some h → h ∈ c.handles

namespace Sound

theorem empty : ({} : Canvas).Sound where
  handles_nodup := .nil
  handle_le_lastHandle := List.forall_mem_nil _
  stacking_live := List.forall_mem_nil _
  active_live _ h := nomatch h

/-- The handle that comes next has no object yet. -/
theorem next_not_mem (hc : c.Sound) : (⟨c.lastHandle + 1⟩ : Handle) ∉ c.handles := fun hmem =>
  Nat.not_succ_le_self _ (hc.handle_le_lastHandle _ hmem)

theorem add (hc : c.Sound) (kind : LayerKind) (geometry : Geometry) (payload : Payload) :
    (c.add kind geometry payload).2.Sound := by
  have hhandles := c.handles_add kind geometry payload
  refine ⟨?_, fun h hh => ?_, fun h hh => ?_, fun h hh => ?_⟩
  · rw [hhandles]
    exact hc.handles_nodup.append (List.nodup_singleton _)
      (List.disjoint_singleton.2 hc.next_not_mem)
  · rw [hhandles] at hh
    rcases List.mem_append.1 hh with hh | hh
    · exact Nat.le_succ_of_le (hc.handle_le_lastHandle h hh)
    · rw [List.mem_singleton.1 hh]
      exact Nat.le_refl _
  · rw [hhandles]
    rcases List.mem_append.1 hh with hh | hh
    · exact List.mem_append_left _ (hc.stacking_live h hh)
    · exact List.mem_append_right _ hh
  · rw [hhandles]
    exact List.mem_append_left _ (hc.active_live h hh)

theorem remove (hc : c.Sound) (h : Handle) : (c.remove h).2.Sound := by
  have hhandles := c.handles_remove h
  by_cases hlive : h ∈ c.handles
  · rw [remove_of_mem hlive] at hhandles ⊢
    refine ⟨?_, fun k hk => ?_, fun k hk => ?_, fun k hk => ?_⟩ <;> rw [hhandles] at *
    · exact hc.handles_nodup.filter _
    · exact hc.handle_le_lastHandle k (List.mem_of_mem_filter hk)
    · rw [List.mem_filter] at hk ⊢
      exact ⟨hc.stacking_live k hk.1, hk.2⟩
    · obtain ⟨hactive, hne⟩ := Option.filter_eq_some_iff.1 hk
      exact List.mem_filter.2 ⟨hc.active_live k hactive, hne⟩
  · rwa [Canvas.remove, if_neg (mt isLive_iff.1 hlive)]

theorem change (hc : c.Sound) (h : Handle) (f : CanvasObject → CanvasObject) :
    (c.change h f).Sound := by
  have hhandles := c.handles_change h f
  exact ⟨hhandles ▸ hc.handles_nodup, hhandles ▸ hc.handle_le_lastHandle,
    hhandles ▸ hc.stacking_live, hhandles ▸ hc.active_live⟩

theorem setGeometry (hc : c.Sound) (h : Handle) (g : Geometry) :
    (c.setGeometry h g).2.Sound := by
  unfold Canvas.setGeometry
  split
  · exact hc.change h fun o => { o with geometry := g }
  · exact hc

theorem dragTo (hc : c.Sound) (h : Handle) (p : Point) : (c.dragTo h p).2.Sound := by
  unfold Canvas.dragTo
  split
  · exact hc.setGeometry h _
  · exact hc

theorem restack (hc : c.Sound) (order : List Handle) : (c.restack order).Sound where
  __ := hc
  stacking_live _ hh := isLive_iff.1 (List.mem_filter.1 hh).2

theorem setActive (hc : c.Sound) (h : Option Handle) : (c.setActive h).Sound where
  __ := hc
  active_live _ hk := isLive_iff.1 (Option.filter_eq_some_iff.1 hk).2

/-- A canvas stays sound, whatever handles and stackings an operation names. -/
theorem step (hc : c.Sound) (op : CanvasOp) : (c.step op).canvas.Sound := by
  cases op with
  | add kind geometry payload => exact hc.add kind geometry payload
  | remove h => exact hc.remove h
  | setGeometry h g => exact hc.setGeometry h g
  | dragTo h p => exact hc.dragTo h p
  | setPayload h payload => exact hc.change h fun o => { o with payload }
  | setVisible h visible => exact hc.change h fun o => { o with visible }
  | setSelectable h selectable => exact hc.change h fun o => { o with selectable }
  | restack order => exact hc.restack order
  | setActive h => exact hc.setActive h
  | listen => exact { hc with }

theorem run (hc : c.Sound) (ops : List CanvasOp) : (c.run ops).Sound := by
  induction ops generalizing c with
  | nil => exact hc
  | cons op ops ih => exact ih (hc.step op)

end Sound

/-! ## Writes -/

/-- The live handles are those that have a geometry. -/
theorem isLive_iff_geometry? : c.isLive h = true ↔ ∃ g, c.geometry? h = some g := by
  rw [isLive, ← Option.isSome_map, ← geometry?, Option.isSome_iff_exists]

theorem isLive_of_geometry_eq {g : Geometry} (hg : c.geometry? h = some g) : c.isLive h = true :=
  isLive_iff_geometry?.2 ⟨g, hg⟩

/-- Geometries are written by `setGeometry` and `dragTo`, of objects that lie on the canvas. -/
theorem write?_eq_some_iff {g : Geometry} :
    c.write? op = some (h, g) ↔ c.isLive h = true ∧
      (op = .setGeometry h g ∨ ∃ p old, op = .dragTo h p ∧ c.geometry? h = some old ∧
        g = { old with position := p }) := by
  cases op with
  | setGeometry k g' =>
    simp only [write?, Option.ite_none_right_eq_some, Option.some.injEq, Prod.mk.injEq,
      CanvasOp.setGeometry.injEq, reduceCtorEq, false_and, exists_false, or_false]
    constructor
    · rintro ⟨hlive, rfl, rfl⟩
      exact ⟨hlive, rfl, rfl⟩
    · rintro ⟨hlive, rfl, rfl⟩
      exact ⟨hlive, rfl, rfl⟩
  | dragTo k p =>
    simp only [write?, Option.map_eq_some_iff, Prod.mk.injEq, CanvasOp.dragTo.injEq, reduceCtorEq,
      false_or]
    constructor
    · rintro ⟨old, hold, rfl, rfl⟩
      exact ⟨isLive_of_geometry_eq hold, p, old, ⟨rfl, rfl⟩, hold, rfl⟩
    · rintro ⟨-, p', old, ⟨rfl, rfl⟩, hold, rfl⟩
      exact ⟨old, hold, rfl, rfl⟩
  | add _ _ _ | remove _ | setPayload _ _ | setVisible _ _ | setSelectable _ _ | restack _
  | setActive _ | listen => simp [write?]

/-- A geometry that is written is the one that is found from then on. -/
theorem geometry?_of_write? {g : Geometry} (hw : c.write? op = some (h, g)) :
    Canvas.geometry? (c.step op).canvas h = some g := by
  obtain ⟨hlive, rfl | ⟨p, old, rfl, hold, rfl⟩⟩ := write?_eq_some_iff.1 hw
  · obtain ⟨o, ho⟩ := Option.isSome_iff_exists.1 hlive
    refine (c.geometry?_setGeometry h h g).trans ?_
    simp [geometry?_of_object? ho]
  · simp only [step, dragTo, hold]
    rw [geometry?_setGeometry, if_pos rfl, hold]
    rfl

/-- An object that is dragged changes its position and nothing else, and nothing else changes. -/
theorem step_dragTo_of_object? (hc : c.Sound) (ho : c.object? h = some o) (p : Point) :
    (c.step (.dragTo h p)).canvas =
      c.change h fun o => { o with geometry := { o.geometry with position := p } } := by
  simp only [step, dragTo, geometry?_of_object? ho, setGeometry_of_object? ho]
  exact change_congr hc.handles_nodup ho rfl

theorem handles_setGeometry (c : Canvas) (h : Handle) (g : Geometry) :
    (c.setGeometry h g).2.handles = c.handles := by
  unfold setGeometry
  split
  · exact handles_change ..
  · rfl

theorem handles_dragTo (c : Canvas) (h : Handle) (p : Point) :
    (c.dragTo h p).2.handles = c.handles := by
  unfold dragTo
  split
  · exact c.handles_setGeometry h _
  · rfl

/-! ## Listeners -/

/-- Only a new listener changes their number. -/
theorem listeners_step (c : Canvas) (op : CanvasOp) :
    (c.step op).canvas.listeners = c.listeners + match op with | .listen => 1 | _ => 0 := by
  have hset : ∀ h g, (c.setGeometry h g).2.listeners = c.listeners := by
    intro h g
    unfold setGeometry
    split <;> rfl
  cases op with
  | remove h =>
    simp only [step, remove]
    split <;> rfl
  | setGeometry h g => exact hset h g
  | dragTo h p =>
    simp only [step, dragTo]
    split
    · exact hset h _
    · rfl
  | add _ _ _ | setPayload _ _ | setVisible _ _ | setSelectable _ _ | restack _ | setActive _
  | listen => rfl

theorem listeners_le_run (c : Canvas) (ops : List CanvasOp) :
    c.listeners ≤ (c.run ops).listeners := by
  induction ops generalizing c with
  | nil => exact Nat.le_refl _
  | cons op ops ih =>
    refine Nat.le_trans ?_ (ih (c.step op).canvas)
    rw [listeners_step]
    exact Nat.le_add_right _ _

theorem notices_setGeometry (c : Canvas) (h : Handle) (g : Geometry) :
    (c.setGeometry h g).1 = if c.isLive h then c.notices h g else [] := by
  unfold setGeometry
  split <;> rfl

/-- What an operation makes the listeners hear: all of them hear of the geometry that it writes,
the first listener first. -/
theorem notices_step (c : Canvas) (op : CanvasOp) :
    (c.step op).notices =
      (c.write? op).toList.flatMap fun w => (List.range c.listeners).map (⟨·, w.1, w.2⟩) := by
  cases op with
  | setGeometry h g =>
    simp only [step, write?, notices_setGeometry]
    split <;> simp [notices]
  | dragTo h p =>
    simp only [step, write?, dragTo]
    cases hg : c.geometry? h with
    | none => rfl
    | some g =>
      simp [notices_setGeometry, isLive_of_geometry_eq hg, notices]
  | add _ _ _ | remove _ | setPayload _ _ | setVisible _ _ | setSelectable _ _ | restack _
  | setActive _ | listen => rfl

theorem filter_range_eq (n m : Nat) :
    ((List.range m).filter fun i => i = n) = if n < m then [n] else [] := by
  have hbeq : (List.range m).filter (fun i => i = n) = (List.range m).filter (· == n) := rfl
  rw [hbeq, List.filter_beq]
  split
  · next hlt =>
    rw [List.count_eq_one_of_mem List.nodup_range (List.mem_range.2 hlt)]
    rfl
  · next hle => rw [List.count_eq_zero_of_not_mem (mt List.mem_range.1 hle), List.replicate_zero]

/-- A listener hears once of what an operation writes, if it listens by then. -/
theorem heardBy_step (c : Canvas) (n : Nat) (op : CanvasOp) :
    c.heardBy n [op] = if n < c.listeners then (c.write? op).toList else [] := by
  rw [heardBy, heard, heard, List.append_nil, notices_step]
  cases c.write? op with
  | none => simp
  | some w =>
    simp only [Option.toList_some, List.flatMap_singleton, List.filter_map, Function.comp_def,
      filter_range_eq]
    split <;> rfl

/-- A listener hears of everything that is written from then on. -/
theorem heardBy_eq_writes (hn : n < c.listeners) (ops : List CanvasOp) :
    c.heardBy n ops = c.writes ops := by
  induction ops generalizing c with
  | nil => rfl
  | cons op ops ih =>
    have hlt : n < (c.step op).canvas.listeners :=
      Nat.lt_of_lt_of_le hn (c.listeners_le_run [op])
    rw [← List.singleton_append, heardBy_append, heardBy_step, if_pos hn]
    exact congrArg _ (ih hlt)

/-- Nobody hears of anything before listening. -/
theorem heardBy_eq_nil {ops : List CanvasOp} (hn : (c.run ops).listeners ≤ n) :
    c.heardBy n ops = [] := by
  induction ops generalizing c with
  | nil => rfl
  | cons op ops ih =>
    have hle : ¬ n < c.listeners := by
      have hgrown := c.listeners_le_run (op :: ops)
      omega
    rw [← List.singleton_append, heardBy_append, heardBy_step, if_neg hle]
    exact ih hn

/-- A listener hears of what is written after it was added, and of nothing else. -/
theorem heardBy_append_listen (c : Canvas) (before after : List CanvasOp) :
    c.heardBy (c.run before).listeners (before ++ .listen :: after) =
      (c.run (before ++ [.listen])).writes after := by
  have hlt : (c.run before).listeners < (c.run (before ++ [.listen])).listeners := by
    rw [run_append]
    exact Nat.lt_succ_self _
  rw [← List.singleton_append, ← List.append_assoc, heardBy_append, heardBy_eq_writes hlt,
    heardBy_append, heardBy_eq_nil (Nat.le_refl _), heardBy_step, if_neg (Nat.lt_irrefl _)]
  rfl

end Canvas

end WidgetSkin
