import WidgetSkin.Proofs.Canvas.Run

/-!
# Integrity of canvases

Whoever works on a canvas may pass stale, unknown and repeated handles, one by one and in
stackings. Handles are numbered through by the additions, so none is given twice. An operation on
a handle without an object does nothing; only making it active leaves no object active. The
stacking is an arrangement of all handles as long as every new stacking names each of them once.

## Main definitions

* `CanvasOp.isAdd` — the operations that give a handle.
* `CanvasOp.target?`, `CanvasOp.missed` — the handle that an operation works on, and what it
  answers if that handle has no object.
* `Canvas.given` — the handles that some operations gave.

## Main statements

* `Canvas.given_eq` — additions number their handles through.
* `Canvas.mem_handles_run_iff` — a handle keeps its object until that is removed, and then never
  has one again.
* `Canvas.step_of_not_mem` — an operation on a handle without an object.
* `Canvas.restack_perm_iff` — the stackings that name every handle once.
* `Canvas.integrity_run` — what holds of a canvas under any caller.
-/

namespace WidgetSkin

/-- The handle that an answer gives. -/
def CanvasAnswer.handle? : CanvasAnswer → Option Handle
  | .handle h => some h
  | .nothing | .flag _ | .listener _ => none

namespace CanvasOp

/-- Whether an operation puts an object on the canvas. -/
def isAdd : CanvasOp → Bool
  | .add .. => true
  | .remove _ | .setGeometry .. | .dragTo .. | .setPayload .. | .setVisible .. | .setSelectable ..
  | .restack _ | .setActive _ | .listen => false

/-- The handle whose object an operation works on. `setActive` names a handle too, but works on
the canvas. -/
def target? : CanvasOp → Option Handle
  | .remove h | .setGeometry h _ | .dragTo h _ | .setPayload h _ | .setVisible h _
  | .setSelectable h _ => some h
  | .add .. | .restack _ | .setActive _ | .listen => none

/-- What an operation answers if its handle has no object. -/
def missed : CanvasOp → CanvasAnswer
  | .remove _ => .flag false
  | .add .. | .setGeometry .. | .dragTo .. | .setPayload .. | .setVisible .. | .setSelectable ..
  | .restack _ | .setActive _ | .listen => .nothing

end CanvasOp

namespace Canvas

/-- The handles that some operations gave, in their order. -/
def given (c : Canvas) : List CanvasOp → List Handle
  | [] => []
  | op :: ops => (c.step op).answer.handle?.toList ++ given (c.step op).canvas ops

variable {c : Canvas} {h : Handle} {op : CanvasOp} {ops : List CanvasOp}

/-! ## What an operation does to handles and stacking -/

/-- A new geometry is a change of the object, also where there is none to change. -/
theorem exists_setGeometry_eq_change (c : Canvas) (h : Handle) (g : Geometry) :
    ∃ f, (c.setGeometry h g).2 = c.change h f := by
  unfold setGeometry
  split
  · exact ⟨fun o => { o with geometry := g }, rfl⟩
  · exact ⟨id, by simp [change]⟩

theorem exists_dragTo_eq_change (c : Canvas) (h : Handle) (p : Point) :
    ∃ f, (c.dragTo h p).2 = c.change h f := by
  unfold dragTo
  split
  · exact c.exists_setGeometry_eq_change h _
  · exact ⟨id, by simp [change]⟩

/-- The handles after an operation. -/
theorem handles_step (c : Canvas) (op : CanvasOp) :
    (c.step op).canvas.handles = match op with
      | .add .. => c.handles ++ [⟨c.lastHandle + 1⟩]
      | .remove h => c.handles.filter (· ≠ h)
      | _ => c.handles := by
  cases op with
  | add kind geometry payload => exact c.handles_add kind geometry payload
  | remove h => exact c.handles_remove h
  | setGeometry h g => exact c.handles_setGeometry h g
  | dragTo h p => exact c.handles_dragTo h p
  | setPayload h _ | setVisible h _ | setSelectable h _ => exact c.handles_change h _
  | restack _ | setActive _ | listen => rfl

/-- Only additions count handles. -/
theorem lastHandle_step (c : Canvas) (op : CanvasOp) :
    (c.step op).canvas.lastHandle = c.lastHandle + if op.isAdd then 1 else 0 := by
  cases op with
  | remove h =>
    simp only [step, remove]
    split <;> rfl
  | setGeometry h g =>
    obtain ⟨f, hf⟩ := c.exists_setGeometry_eq_change h g
    exact (congrArg lastHandle hf).trans rfl
  | dragTo h p =>
    obtain ⟨f, hf⟩ := c.exists_dragTo_eq_change h p
    exact (congrArg lastHandle hf).trans rfl
  | add _ _ _ | setPayload _ _ | setVisible _ _ | setSelectable _ _ | restack _ | setActive _
  | listen => rfl

/-- The stacking after an operation. -/
theorem stacking_step (hc : c.Sound) (op : CanvasOp) :
    (c.step op).canvas.stacking = match op with
      | .add .. => c.stacking ++ [⟨c.lastHandle + 1⟩]
      | .remove h => c.stacking.filter (· ≠ h)
      | .restack order => order.filter c.isLive
      | _ => c.stacking := by
  cases op with
  | remove h =>
    by_cases hlive : h ∈ c.handles
    · exact congrArg stacking (remove_of_mem hlive)
    · -- A stacking holds handles with an object alone, so there is nothing to take from it.
      have hstacking : c.stacking.filter (· ≠ h) = c.stacking := by
        refine List.filter_eq_self.2 fun k hk => ?_
        simpa using fun heq : k = h => hlive (heq ▸ hc.stacking_live k hk)
      simp only [step, remove, if_neg (mt isLive_iff.1 hlive), hstacking]
  | setGeometry h g =>
    obtain ⟨f, hf⟩ := c.exists_setGeometry_eq_change h g
    exact (congrArg stacking hf).trans rfl
  | dragTo h p =>
    obtain ⟨f, hf⟩ := c.exists_dragTo_eq_change h p
    exact (congrArg stacking hf).trans rfl
  | add _ _ _ | setPayload _ _ | setVisible _ _ | setSelectable _ _ | restack _ | setActive _
  | listen => rfl

/-! ## Handles that were given -/

/-- Additions alone give handles, each the next number. -/
theorem handle?_step (c : Canvas) (op : CanvasOp) :
    (c.step op).answer.handle? = if op.isAdd then some ⟨c.lastHandle + 1⟩ else none := by
  cases op <;> rfl

/-- The last handle tells how many additions there were. -/
theorem lastHandle_run (c : Canvas) (ops : List CanvasOp) :
    (c.run ops).lastHandle = c.lastHandle + ops.countP CanvasOp.isAdd := by
  induction ops generalizing c with
  | nil => rfl
  | cons op ops ih =>
    rw [run_cons, ih, lastHandle_step, List.countP_cons]
    omega

/-- Additions number their handles through. -/
theorem given_eq (c : Canvas) (ops : List CanvasOp) :
    c.given ops =
      (List.range' (c.lastHandle + 1) (ops.countP CanvasOp.isAdd)).map Handle.mk := by
  induction ops generalizing c with
  | nil => rfl
  | cons op ops ih =>
    rw [given, ih, handle?_step, lastHandle_step, List.countP_cons]
    cases op.isAdd <;> rfl

/-- No handle that was given is beyond the last one. -/
theorem val_le_of_mem_given (hmem : h ∈ c.given ops) : h.val ≤ (c.run ops).lastHandle := by
  rw [given_eq, List.mem_map] at hmem
  obtain ⟨n, hn, rfl⟩ := hmem
  rw [List.mem_range'_1] at hn
  rw [lastHandle_run]
  change n ≤ _
  omega

/-- Objects come with additions. -/
theorem mem_handles_or_given (hmem : h ∈ (c.run ops).handles) :
    h ∈ c.handles ∨ h ∈ c.given ops := by
  induction ops generalizing c with
  | nil => exact .inl hmem
  | cons op ops ih =>
    rw [given, List.mem_append, Option.mem_toList]
    rcases ih hmem with hstep | hrest
    · rw [handles_step] at hstep
      cases op with
      | add kind geometry payload =>
        rcases List.mem_append.1 hstep with hold | hnew
        · exact .inl hold
        · exact .inr (.inl (congrArg some (List.mem_singleton.1 hnew).symm))
      | remove k => exact .inl (List.mem_of_mem_filter hstep)
      | setGeometry _ _ | dragTo _ _ | setPayload _ _ | setVisible _ _ | setSelectable _ _
      | restack _ | setActive _ | listen => exact .inl hstep
    · exact .inr (.inr hrest)

/-- Of the handles that were given before, an operation takes away the one that it removes. -/
theorem mem_handles_step_iff (hle : h.val ≤ c.lastHandle) (op : CanvasOp) :
    h ∈ (c.step op).canvas.handles ↔ h ∈ c.handles ∧ op ≠ .remove h := by
  rw [handles_step]
  cases op with
  | add kind geometry payload =>
    have hne : h ≠ ⟨c.lastHandle + 1⟩ := by
      rintro rfl
      exact Nat.not_succ_le_self _ hle
    simp [hne]
  | remove k => simp [@eq_comm _ k h]
  | setGeometry _ _ | dragTo _ _ | setPayload _ _ | setVisible _ _ | setSelectable _ _
  | restack _ | setActive _ | listen => simp

/-- A handle that was given keeps its object until that is removed, and then never has one
again. -/
theorem mem_handles_run_iff (hle : h.val ≤ c.lastHandle) (ops : List CanvasOp) :
    h ∈ (c.run ops).handles ↔ h ∈ c.handles ∧ .remove h ∉ ops := by
  induction ops generalizing c with
  | nil => simp
  | cons op ops ih =>
    have hle' : h.val ≤ (c.step op).canvas.lastHandle := by
      rw [lastHandle_step]
      omega
    rw [run_cons, ih hle', mem_handles_step_iff hle, List.mem_cons, not_or, and_assoc, ne_comm]

/-! ## Handles without an object -/

/-- A change of an object that is not there changes nothing. -/
theorem change_of_not_mem (hdead : h ∉ c.handles) (f : CanvasObject → CanvasObject) :
    c.change h f = c := by
  have hsame : ∀ o ∈ c.objects, (if o.1 = h then (o.1, f o.2) else o) = o := by
    refine fun o ho => if_neg ?_
    rintro rfl
    exact hdead (List.mem_map_of_mem ho)
  rw [change, List.map_congr_left hsame, List.map_id']

/-- An operation on a handle without an object leaves the canvas as it is, and nobody hears of
it. -/
theorem step_of_not_mem (htarget : op.target? = some h) (hdead : h ∉ c.handles) :
    c.step op = { answer := op.missed, canvas := c } := by
  have hlive : ¬ c.isLive h = true := mt isLive_iff.1 hdead
  have hgeometry := geometry?_of_not_mem hdead
  cases op with
  | remove k =>
    cases htarget
    simp only [step, remove, if_neg hlive]
    rfl
  | setGeometry k g =>
    cases htarget
    simp only [step, setGeometry, if_neg hlive]
    rfl
  | dragTo k p =>
    cases htarget
    simp only [step, dragTo, hgeometry]
    rfl
  | setPayload k _ | setVisible k _ | setSelectable k _ =>
    cases htarget
    exact congrArg (CanvasStep.mk .nothing []) (change_of_not_mem hdead _)
  | add _ _ _ | restack _ | setActive _ | listen => cases htarget

/-- If a handle without an object is to be active, no object is, and nothing else changes. -/
theorem step_setActive_of_not_mem (hdead : h ∉ c.handles) :
    c.step (.setActive (some h)) = { canvas := { c with active := none } } := by
  have hlive : ¬ c.isLive h = true := mt isLive_iff.1 hdead
  simp only [step, setActive, Option.filter_some, if_neg hlive]

/-! ## Stackings of all handles -/

/-- A new stacking arranges all handles if it names each of them once, whatever else it names. -/
theorem restack_perm_iff (hnodup : c.handles.Nodup) (order : List Handle) :
    (c.restack order).stacking.Perm c.handles ↔ ∀ h ∈ c.handles, order.count h = 1 := by
  have hcount : ∀ h ∈ c.handles, (order.filter c.isLive).count h = order.count h :=
    fun h hh => List.count_filter (isLive_iff.2 hh)
  constructor
  · intro hperm h hh
    rw [← hcount h hh, ← List.count_eq_one_of_mem hnodup hh]
    exact hperm.count_eq h
  · intro hnamed
    refine List.perm_iff_count.2 fun h => ?_
    by_cases hh : h ∈ c.handles
    · rw [List.count_eq_one_of_mem hnodup hh, ← hnamed h hh]
      exact hcount h hh
    · have hdead : h ∉ (c.restack order).stacking := fun hmem =>
        hh (isLive_iff.1 (List.mem_filter.1 hmem).2)
      rw [List.count_eq_zero_of_not_mem hh, List.count_eq_zero_of_not_mem hdead]

/-- If the stacking arranges all handles, it still does after an operation, unless that is a new
stacking which does not name each of them once. -/
theorem stacking_perm_step_iff (hc : c.Sound) (hperm : c.stacking.Perm c.handles)
    (op : CanvasOp) :
    (c.step op).canvas.stacking.Perm (c.step op).canvas.handles ↔
      ∀ order, op = .restack order → ∀ h ∈ c.handles, order.count h = 1 := by
  cases op with
  | restack order =>
    simpa [step] using restack_perm_iff hc.handles_nodup order
  | add kind geometry payload =>
    rw [stacking_step hc, handles_step]
    simpa using hperm.append_right _
  | remove h =>
    rw [stacking_step hc, handles_step]
    simpa using hperm.filter _
  | setGeometry _ _ | dragTo _ _ | setPayload _ _ | setVisible _ _ | setSelectable _ _
  | setActive _ | listen =>
    rw [stacking_step hc, handles_step]
    simpa using hperm

theorem run_take_succ (c : Canvas) (ops : List CanvasOp) (n : Nat) :
    c.run (ops.take (n + 1)) = (c.run (ops.take n)).run ops[n]?.toList := by
  rw [List.take_add_one, run_append]

/-- The stacking arranges all handles in every state of a run exactly if every new stacking names
each of them once. -/
theorem stacking_perm_run_iff (hc : c.Sound) (hperm : c.stacking.Perm c.handles)
    (ops : List CanvasOp) :
    (∀ n, (c.run (ops.take n)).stacking.Perm (c.run (ops.take n)).handles) ↔
      ∀ n order, ops[n]? = some (.restack order) →
        ∀ h ∈ (c.run (ops.take n)).handles, order.count h = 1 := by
  constructor
  · intro hall n order hop
    have hnext := hall (n + 1)
    rw [run_take_succ, hop] at hnext
    exact (stacking_perm_step_iff (hc.run _) (hall n) _).1 hnext order rfl
  · intro hnamed n
    induction n with
    | zero => exact hperm
    | succ n ih =>
      rw [run_take_succ]
      cases hop : ops[n]? with
      | none => exact ih
      | some op =>
        refine (stacking_perm_step_iff (hc.run _) ih op).2 fun order heq => ?_
        exact hnamed n order (heq ▸ hop)

/-! ## Any caller -/

/-- A canvas under any caller. Whatever was done on it, an addition answers a handle above all
that were given before, numbered by the additions until then. Objects have different handles, all
of them given; a handle keeps its object until that is removed, and then never has one again. All
handles in the stacking have an object, and so has the active one. An operation on a handle
without an object changes nothing, tells no listener and answers that there was none; if such a
handle is to be active, no object is, and nothing else changes. In all states on the way the
stacking is a permutation of the handles that have an object, exactly if each new stacking names
every such handle once, whatever else it names. -/
theorem integrity_run (ops : List CanvasOp) :
    let c := ({} : Canvas).run ops
    (∀ kind geometry payload, ∃ h,
      (c.step (.add kind geometry payload)).answer = .handle h ∧
      h.val = ops.countP CanvasOp.isAdd + 1 ∧ ∀ k ∈ ({} : Canvas).given ops, k.val < h.val) ∧
    c.handles.Nodup ∧ (∀ h ∈ c.handles, h ∈ ({} : Canvas).given ops) ∧
    (∀ n, ∀ h ∈ ({} : Canvas).given (ops.take n), h ∈ c.handles ↔
      h ∈ (({} : Canvas).run (ops.take n)).handles ∧ .remove h ∉ ops.drop n) ∧
    (∀ h ∈ c.stacking, h ∈ c.handles) ∧ (∀ h, c.active = some h → h ∈ c.handles) ∧
    (∀ op h, op.target? = some h → h ∉ c.handles →
      c.step op = { answer := op.missed, notices := [], canvas := c }) ∧
    (∀ h, h ∉ c.handles →
      c.step (.setActive (some h)) = { canvas := { c with active := none } }) ∧
    ((∀ n, (({} : Canvas).run (ops.take n)).stacking.Perm
        (({} : Canvas).run (ops.take n)).handles) ↔
      ∀ n order, ops[n]? = some (.restack order) →
        ∀ h ∈ (({} : Canvas).run (ops.take n)).handles, order.count h = 1) := by
  intro c
  have hc : c.Sound := Sound.empty.run ops
  have hlast : c.lastHandle = ops.countP CanvasOp.isAdd :=
    (lastHandle_run {} ops).trans (Nat.zero_add _)
  refine ⟨fun kind geometry payload => ⟨⟨c.lastHandle + 1⟩, rfl, by rw [hlast], fun k hk => ?_⟩,
    hc.handles_nodup, fun h hh => (mem_handles_or_given hh).resolve_left List.not_mem_nil,
    fun n h hgiven => ?_, hc.stacking_live, hc.active_live,
    fun op h => step_of_not_mem, fun h => step_setActive_of_not_mem,
    stacking_perm_run_iff .empty .nil ops⟩
  · exact Nat.lt_succ_of_le (val_le_of_mem_given hk)
  · have hrun : c = (({} : Canvas).run (ops.take n)).run (ops.drop n) := by
      rw [← run_append, List.take_append_drop]
    rw [hrun]
    exact mem_handles_run_iff (val_le_of_mem_given hgiven) _

/-- A stale handle among two bars: it is named in stackings, removed twice and made active. -/
theorem integrity_run_of_stale_handle :
    let bar : CanvasOp := .add .bar { position := ⟨1, 2⟩, size := ⟨200, 50⟩ }
      (.bar { background := { color := "#000" }, foreground := { color := "#FFA500" } })
    let ops : List CanvasOp := [bar, bar, .restack [⟨2⟩, ⟨9⟩, ⟨1⟩, ⟨9⟩], .remove ⟨2⟩, bar]
    let c := ({} : Canvas).run ops
    c.handles = [⟨1⟩, ⟨3⟩] ∧ ⟨2⟩ ∉ c.handles ∧
      c.step (.remove ⟨2⟩) = { answer := .flag false, notices := [], canvas := c } ∧
      c.step (.setActive (some ⟨2⟩)) = { canvas := { c with active := none } } ∧
      ∀ n, (({} : Canvas).run (ops.take n)).stacking.Perm
        (({} : Canvas).run (ops.take n)).handles := by
  intro bar ops c
  obtain ⟨-, -, -, hkept, -, -, hdead, hinactive, hperm⟩ := integrity_run ops
  have hstale : (⟨2⟩ : Handle) ∉ c.handles := fun hmem =>
    absurd ((hkept 4 ⟨2⟩ (by decide)).1 hmem).1 (by decide)
  have hnamed : ∀ n order, ops[n]? = some (.restack order) →
      ∀ h ∈ (({} : Canvas).run (ops.take n)).handles, order.count h = 1 := by
    rintro (_ | _ | _ | n) order hop
    · simp [ops, bar] at hop
    · simp [ops, bar] at hop
    · cases hop
      decide
    · -- There is one new stacking only.
      have hmem : CanvasOp.restack order ∈ [.remove ⟨2⟩, bar] := List.mem_of_getElem? hop
      simp [bar] at hmem
  exact ⟨by decide, hstale, hdead (.remove ⟨2⟩) ⟨2⟩ rfl hstale, hinactive ⟨2⟩ hstale,
    hperm.2 hnamed⟩

end Canvas

end WidgetSkin
