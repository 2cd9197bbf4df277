import WidgetSkin.Proofs.Editor.Calls
import WidgetSkin.Proofs.Editor.History

/-!
# Editors on any canvas

An editor may be bound to a canvas that others have worked on. Their objects and listeners stay
there, and so editor and canvas need not agree. But every layer has an identifier and an object
of its own, in every state of the editor.

## Main definitions

* `Editor.Anchored` — every layer has an identifier and an object of its own.
* `Editor.Keeps` — an editor with no layer that was not there before, all with their objects.

## Main statements

* `Editor.Anchored.ofCanvas` — a new editor on any canvas.
* `Editor.Anchored.calls_after` — the calls of an event, and how many geometries they write.
* `Editor.Anchored.run` — every layer stays anchored.
-/

namespace WidgetSkin

/-! ## Parts of lists in another order -/

section Subperm

variable {α β : Type} {as bs : List α}

theorem subperm_map (f : α → β) (h : as.Subperm bs) : (as.map f).Subperm (bs.map f) := by
  obtain ⟨cs, hperm, hsublist⟩ := h
  exact ⟨cs.map f, hperm.map f, hsublist.map f⟩

theorem nodup_of_subperm (h : as.Subperm bs) (hbs : bs.Nodup) : as.Nodup := by
  obtain ⟨cs, hperm, hsublist⟩ := h
  exact hperm.nodup_iff.1 (hbs.sublist hsublist)

end Subperm

/-- What is drawn from a pile lay on it. -/
theorem drawFrom_subperm (pile : List Layer) (ids : List LayerId) :
    (drawFrom pile ids).Subperm pile := by
  induction ids generalizing pile with
  | nil => exact List.nil_subperm
  | cons id ids ih =>
    rw [drawFrom]
    cases hfound : pile.find? fun l => l.id = id with
    | none => exact ih pile
    | some l => exact ((List.subperm_cons l).2 (ih _)).trans (fillGap_perm hfound).subperm

/-- What ties a layer to its object. -/
def Layer.anchor (l : Layer) : LayerId × Handle :=
  (l.id, l.handle)

namespace Editor

/-- Every layer has an identifier and an object of its own, whatever else lies on the canvas. -/
structure Anchored (e : Editor) : Prop where
  ids_nodup : (e.layers.map Layer.id).Nodup
  /-- Identifiers that will be given are new. -/
  id_le_lastId : ∀ l ∈ e.layers, l.id.val ≤ e.lastId
  handles_nodup : (e.layers.map Layer.handle).Nodup
  handle_mem : ∀ l ∈ e.layers, l.handle ∈ e.canvas.handles
  canvas_sound : e.canvas.Sound
  /-- The editor listens to the canvas. -/
  listener_lt : e.listener < e.canvas.listeners

/-- One editor has no layer that another has not, and all of them with their objects. Both have
the same configuration and the same tool. -/
structure Keeps (e e' : Editor) : Prop where
  config_eq : e'.config = e.config
  tool_eq : e'.tool = e.tool
  lastId_le : e.lastId ≤ e'.lastId
  anchors_subperm : (e'.layers.map Layer.anchor).Subperm (e.layers.map Layer.anchor)
  handle_mem : ∀ l ∈ e'.layers, l.handle ∈ e.canvas.handles → l.handle ∈ e'.canvas.handles

namespace Keeps

variable {e e' : Editor} {l m : Layer}

/-- A layer that is there was there, with its object. -/
theorem exists_anchor (h : e.Keeps e') (hl : l ∈ e'.layers) :
    ∃ m ∈ e.layers, m.id = l.id ∧ m.handle = l.handle := by
  obtain ⟨m, hm, heq⟩ := List.mem_map.1 (h.anchors_subperm.subset (List.mem_map_of_mem hl))
  exact ⟨m, hm, congrArg Prod.fst heq, congrArg Prod.snd heq⟩

instance : Std.Refl Keeps where
  refl _ := ⟨rfl, rfl, Nat.le_refl _, .refl _, fun _ _ h => h⟩

instance : IsTrans Editor Keeps where
  trans e e' e'' h h' := by
    refine ⟨h'.config_eq.trans h.config_eq, h'.tool_eq.trans h.tool_eq,
      Nat.le_trans h.lastId_le h'.lastId_le, h'.anchors_subperm.trans h.anchors_subperm, ?_⟩
    intro l hl hhandle
    obtain ⟨m, hm, -, heq⟩ := h'.exists_anchor hl
    exact h'.handle_mem l hl (heq ▸ h.handle_mem m hm (heq ▸ hhandle))

/-- An editor that keeps layers and handles. -/
theorem of_eq (hconfig : e'.config = e.config) (htool : e'.tool = e.tool)
    (hlayers : e'.layers = e.layers) (hlastId : e'.lastId = e.lastId)
    (hhandles : e'.canvas.handles = e.canvas.handles) : e.Keeps e' :=
  ⟨hconfig, htool, Nat.le_of_eq hlastId.symm, hlayers ▸ .refl _, fun _ _ h => hhandles ▸ h⟩

/-- A layer that is written over keeps its anchor. -/
theorem setLayer (hnodup : (e.layers.map Layer.id).Nodup) (hl : l ∈ e.layers)
    (hanchor : m.anchor = l.anchor) : e.Keeps (e.setLayer m) := by
  have hanchors : (e.setLayer m).layers.map Layer.anchor = e.layers.map Layer.anchor := by
    rw [Editor.setLayer, List.map_map]
    refine List.map_congr_left fun n hn => ?_
    rw [Function.comp_apply]
    split
    · next hid =>
      have hmid : m.id = l.id := congrArg Prod.fst hanchor
      rw [hanchor, List.inj_on_of_nodup_map hnodup hn hl (hid.trans hmid)]
    · rfl
  exact ⟨rfl, rfl, Nat.le_refl _, hanchors ▸ .refl _, fun _ _ h => h⟩

/-- A layer that is deleted takes its own object along and no other. -/
theorem remove (hnodup : (e.layers.map Layer.handle).Nodup) (hl : l ∈ e.layers) :
    e.Keeps { e with
      layers := e.layers.filter fun m => m.id ≠ l.id
      canvas := (e.canvas.remove l.handle).2 } where
  config_eq := rfl
  tool_eq := rfl
  lastId_le := Nat.le_refl _
  anchors_subperm := (List.filter_sublist.map _).subperm
  handle_mem m hm hhandle := by
    obtain ⟨hm, hid⟩ := List.mem_filter.1 hm
    have hne : m.handle ≠ l.handle := fun heq => by
      simp [List.inj_on_of_nodup_map hnodup hm hl heq] at hid
    rw [Canvas.handles_remove]
    exact List.mem_filter.2 ⟨hhandle, by simpa using hne⟩

end Keeps

namespace Anchored

variable {e e' : Editor} {l : Layer} {ops : List CanvasOp}

/-- A new editor on a canvas that others have worked on. -/
theorem ofCanvas {c : Canvas} (hc : c.Sound) (config : EditorConfig) :
    (Editor.ofCanvas c config).Anchored where
  ids_nodup := .nil
  id_le_lastId := List.forall_mem_nil _
  handles_nodup := .nil
  handle_mem := List.forall_mem_nil _
  canvas_sound := hc.step .listen
  listener_lt := Nat.lt_succ_self _

theorem isLive (h : e.Anchored) : ∀ l ∈ e.layers, e.canvas.isLive l.handle = true :=
  fun l hl => Canvas.isLive_iff.2 (h.handle_mem l hl)

/-- Layers that are kept stay anchored. -/
theorem of_keeps (h : e.Anchored) (hkeeps : e.Keeps e') (hcalls : e.Calls ops e') :
    e'.Anchored := by
  have hids := subperm_map Prod.fst hkeeps.anchors_subperm
  have hhandles := subperm_map Prod.snd hkeeps.anchors_subperm
  simp only [List.map_map] at hids hhandles
  refine ⟨nodup_of_subperm hids h.ids_nodup, fun l hl => ?_,
    nodup_of_subperm hhandles h.handles_nodup, fun l hl => ?_, ?_,
    hcalls.listener_lt h.listener_lt⟩
  · obtain ⟨m, hm, hid, -⟩ := hkeeps.exists_anchor hl
    exact hid ▸ Nat.le_trans (h.id_le_lastId m hm) hkeeps.lastId_le
  · obtain ⟨m, hm, -, hhandle⟩ := hkeeps.exists_anchor hl
    exact hkeeps.handle_mem l hl (hhandle ▸ h.handle_mem m hm)
  · rw [hcalls.canvas_eq]
    exact h.canvas_sound.run ops

/-- A new layer is anchored by an identifier and a handle that were never given. -/
theorem adding (h : e.Anchored) (payload : Payload) (geometry : Geometry) :
    (e.adding payload geometry).Anchored := by
  have hhandles := e.canvas.handles_add payload.kind geometry payload
  refine ⟨?_, fun l hl => ?_, ?_, fun l hl => ?_, ?_, h.listener_lt⟩
  · rw [Editor.adding, List.map_append, List.map_singleton]
    refine h.ids_nodup.append (List.nodup_singleton _) (List.disjoint_singleton.2 fun hmem => ?_)
    obtain ⟨l, hl, heq⟩ := List.mem_map.1 hmem
    have hle := h.id_le_lastId l hl
    simp only [heq, nextLayer] at hle
    omega
  · rcases List.mem_append.1 hl with hl | hl
    · exact Nat.le_succ_of_le (h.id_le_lastId l hl)
    · rw [List.mem_singleton.1 hl]
      exact Nat.le_refl _
  · rw [Editor.adding, List.map_append, List.map_singleton]
    refine h.handles_nodup.append (List.nodup_singleton _)
      (List.disjoint_singleton.2 fun hmem => ?_)
    obtain ⟨l, hl, heq⟩ := List.mem_map.1 hmem
    have hold := h.handle_mem l hl
    rw [heq] at hold
    exact h.canvas_sound.next_not_mem hold
  · rw [Editor.adding, hhandles]
    rcases List.mem_append.1 hl with hl | hl
    · exact List.mem_append_left _ (h.handle_mem l hl)
    · rw [List.mem_singleton.1 hl]
      exact List.mem_append_right _ (List.mem_singleton_self _)
  · exact h.canvas_sound.add payload.kind geometry payload

theorem selecting (h : e.Anchored) (l? : Option Layer) : (e.selecting l?).Anchored :=
  { h with canvas_sound := h.canvas_sound.setActive _ }

theorem created (h : e.Anchored) (new? : Option Creation) : (e.created new?).2.Anchored := by
  cases new? with
  | none => exact h
  | some new => exact (h.adding new.payload new.geometry).selecting _

theorem failed (h : e.Anchored) (op : EditorOp) : (op.failed e).Anchored := by
  cases op <;> exact { h with }

end Anchored

end Editor

/-! ## Edits that keep all layers -/

namespace Edit

variable {α β : Type}

/-- An edit that keeps all layers, or leaves some out. -/
abbrev Keeps (m : Edit α) : Prop :=
  Within Editor.Keeps m

theorem keeps_onCanvas {f : Canvas → Canvas} (hf : ∀ c, (f c).handles = c.handles) :
    Keeps (onCanvas f) :=
  .update fun e => .of_eq rfl rfl rfl rfl (hf e.canvas)

theorem keeps_sync (id : LayerId) : Keeps (sync id) :=
  .bind (.layer id) fun l => keeps_onCanvas fun c => c.handles_change l.handle _

theorem keeps_writeGeometry (h : Handle) (g : Geometry) : Keeps (writeGeometry h g) :=
  .update fun e => .of_eq rfl rfl rfl rfl (e.canvas.handles_setGeometry h g)

theorem keeps_changeGeometry (id : LayerId) (f : Geometry → Geometry) :
    Keeps (changeGeometry id f) :=
  .bind .editor fun _ => .bind (.ofExcept _) fun _ => .bind (.layer id) fun _ =>
    keeps_writeGeometry _ _

/-! ## Edits of one layer -/

section Layer

variable {R : Editor → Editor → Prop} [Std.Refl R] [IsTrans Editor R] {session : Session}

/-- An edit that goes on with a layer. -/
theorem WithinAt.layer_bind {id : LayerId} {f : Layer → Edit α}
    (hf : ∀ l, session.editor.layer? id = some l → WithinAt R (f l) session) :
    WithinAt R (layer id >>= f) session := by
  refine .bind (Within.layer id session) fun l session' h => ?_
  rw [exec_layer] at h
  obtain ⟨hl, rfl⟩ := Prod.mk.inj h
  exact hf l (Editor.requireLayer_eq_ok_iff.1 hl)

/-- An edit that goes on after a look. -/
theorem WithinAt.look_bind {m : Edit α} {f : α → Edit β} (hm : (exec m session).2 = session)
    (hf : ∀ a, WithinAt R (f a) session) : WithinAt R (m >>= f) session := by
  refine .bind ?_ fun a session' h => ?_
  · rw [WithinAt, hm]
    exact Std.Refl.refl _
  · rw [h] at hm
    subst hm
    exact hf a

/-- An edit that writes a layer over. -/
theorem WithinAt.setLayer_bind (hnodup : (session.editor.layers.map Layer.id).Nodup)
    {l m : Layer} (hl : session.editor.layer? l.id = some l) (hanchor : m.anchor = l.anchor)
    {f : Unit → Edit α} (hf : ∀ u, Keeps (f u)) :
    WithinAt Editor.Keeps (update (fun e => e.setLayer m) >>= f) session :=
  .bind (.setLayer hnodup (Editor.mem_of_layer? hl).1 hanchor) fun u session' _ => hf u session'

end Layer

end Edit

/-- An edit of a layer keeps all layers with their objects. -/
theorem LayerEdit.keeps_run (session : Session)
    (hnodup : (session.editor.layers.map Layer.id).Nodup) (s : Surroundings) (id : LayerId)
    (change : LayerEdit) : Edit.WithinAt Editor.Keeps (change.run s id) session := by
  have hcontent : ∀ (expected : LayerKind) (f : Payload → Option Payload),
      Edit.WithinAt Editor.Keeps (Edit.changeContent id expected f) session := by
    intro expected f
    refine .layer_bind fun l hl => ?_
    obtain ⟨-, rfl⟩ := Editor.mem_of_layer? hl
    cases f l.payload with
    | some payload =>
      refine .setLayer_bind hnodup hl ?_ fun _ => Edit.keeps_sync _
      rfl
    | none => exact Edit.Within.throw _ session
  have hnothing : ∀ {m : Edit Unit}, m.WithinAt Editor.Keeps session →
      Edit.WithinAt Editor.Keeps (m >>= fun _ => pure Answer.nothing) session := fun hm =>
    .bind hm fun _ session' _ => Edit.Within.pure _ session'
  cases change with
  | measure m =>
    refine hnothing (.layer_bind fun l hl => ?_)
    obtain ⟨-, rfl⟩ := Editor.mem_of_layer? hl
    refine .look_bind (by rw [Edit.exec_requireApplicable]) fun _ => ?_
    refine .setLayer_bind hnodup hl ?_ fun _ => Edit.keeps_sync _
    rfl
  | text _ | font _ | textFill _ =>
    rw [run, Edit.changeText_eq]
    exact hnothing (hcontent _ _)
  | fontSize points =>
    rw [run, Edit.changeText_eq]
    exact .look_bind (by rw [Edit.exec_refuseIf]) fun _ => hnothing (hcontent _ _)
  | barFill _ _ =>
    rw [run, Edit.changeBar_eq]
    exact hnothing (hcontent _ _)
  | shapeFill _ =>
    rw [run, Edit.changeShape_eq]
    exact hnothing (hcontent _ _)
  | imageSource path =>
    refine hnothing (.layer_bind fun l hl => ?_)
    obtain ⟨-, rfl⟩ := Editor.mem_of_layer? hl
    refine .look_bind (by rw [Edit.exec_refuseIf]) fun _ => ?_
    refine .look_bind (by rw [Edit.exec_imageSize]) fun size => ?_
    refine .setLayer_bind hnodup hl ?_ fun _ => .bind .editor fun e => ?_
    · rfl
    · cases e.canvas.geometry? l.handle with
      | some g => exact .bind (Edit.keeps_writeGeometry _ _) fun _ => Edit.keeps_sync _
      | none => exact Edit.keeps_sync _
  | property name value =>
    refine hnothing (.layer_bind fun l hl => ?_)
    obtain ⟨-, rfl⟩ := Editor.mem_of_layer? hl
    cases l.payload with
    | rotator n =>
      refine .look_bind (by rw [Edit.exec_ofExcept]) fun turned => ?_
      refine .setLayer_bind hnodup hl ?_ fun _ => ?_
      · rfl
      · split
        · exact .bind (Edit.keeps_changeGeometry _ _) fun _ => Edit.keeps_sync _
        · exact Edit.keeps_sync _
    | text _ | image _ | bar _ | shape _ => exact Edit.Within.throw _ session
  | position _ => exact hnothing (Edit.keeps_changeGeometry id _ session)
  | size _ =>
    exact hnothing (.look_bind (by rw [Edit.exec_refuseIf]) fun _ =>
      .layer_bind fun _ _ => Edit.keeps_changeGeometry id _ session)
  | scale _ | angle _ =>
    exact hnothing (.look_bind (by rw [Edit.exec_refuseIf]) fun _ =>
      Edit.keeps_changeGeometry id _ session)
  | toggleVisibility | toggleLock =>
    refine .map _ (.layer_bind fun l hl => ?_)
    obtain ⟨-, rfl⟩ := Editor.mem_of_layer? hl
    refine .setLayer_bind hnodup hl ?_ fun _ =>
      .bind (Edit.keeps_onCanvas fun c => ?_) fun _ => .pure _
    · rfl
    · exact Canvas.handles_change ..

/-! ## Operations that create no layer -/

namespace Edit

/-- Layers in another order, or some of them. -/
theorem keeps_layers {f : Editor → List Layer} (hf : ∀ e, (f e).Subperm e.layers) :
    Keeps (update fun e => { e with layers := f e }) :=
  .update fun e => ⟨rfl, rfl, Nat.le_refl _, subperm_map _ (hf e), fun _ _ h => h⟩

theorem keeps_restack : Keeps restack :=
  .update fun _ => .of_eq rfl rfl rfl rfl rfl

theorem keeps_select (id : LayerId) : Keeps (select id) := by
  refine .update fun e => ?_
  cases e.layer? id <;> exact .of_eq rfl rfl rfl rfl rfl

theorem keeps_clearSelection : Keeps clearSelection :=
  .update fun _ => .of_eq rfl rfl rfl rfl rfl

theorem keeps_reorder (order : List LayerId) : Keeps (reorder order) :=
  .bind .editor fun _ => .bind (.refuseIf _ _) fun _ => .bind (.ofExcept _) fun _ =>
    .bind (keeps_layers fun e => drawFrom_subperm e.layers order) fun _ => keeps_restack

theorem keeps_move (id : LayerId) (direction : Direction) : Keeps (move id direction) := by
  refine .bind (.layer id) fun _ => .bind .editor fun _ => ?_
  cases direction <;> dsimp only <;> split
  · exact .bind (keeps_layers fun _ => (exchangeAt_perm _ _).subperm) fun _ => keeps_restack
  · exact .pure _
  · exact .bind (keeps_layers fun _ => (exchangeAt_perm _ _).subperm) fun _ => keeps_restack
  · exact .pure _

theorem keeps_delete (session : Session) (h : session.editor.Anchored) (id : LayerId) :
    WithinAt Editor.Keeps (delete id) session := by
  refine .bind (Within.editor session) fun e session₁ h₁ => ?_
  cases h₁
  cases hfound : session.editor.layer? id with
  | none => exact Within.pure _ session
  | some l =>
    obtain ⟨hl, rfl⟩ := Editor.mem_of_layer? hfound
    refine .bind (.remove h.handles_nodup hl) fun _ session₂ _ => ?_
    dsimp only
    split
    · exact Within.bind keeps_clearSelection (fun _ => .pure _) session₂
    · exact Within.pure _ session₂

end Edit

/-- Operations that neither create a layer nor choose a tool keep the layers with their objects,
or delete some. -/
theorem EditorOp.keeps_run {e : Editor} (h : e.Anchored) {s : Surroundings} {op : EditorOp}
    (hop : op.creating? s e = none) (htool : ∀ tool, op ≠ .setTool tool) :
    Edit.WithinAt Editor.Keeps (op.run s) { editor := e } := by
  cases op with
  | setTool tool => exact absurd rfl (htool tool)
  | setBackgroundPosition _ | setBackdropColor _ =>
    exact Edit.Within.bind (.update fun _ => .of_eq rfl rfl rfl rfl rfl) (fun _ => .pure _) _
  | setBackgroundSize _ _ =>
    exact Edit.Within.bind
      (.bind (.refuseIf _ _) fun _ => .update fun _ => .of_eq rfl rfl rfl rfl rfl)
      (fun _ => .pure _) _
  | delete id => exact .map _ (Edit.keeps_delete { editor := e } h id)
  | reorder order => exact Edit.Within.bind (Edit.keeps_reorder order) (fun _ => .pure _) _
  | move id direction => exact Edit.Within.bind (Edit.keeps_move id direction) (fun _ => .pure _) _
  | select id => exact Edit.Within.bind (Edit.keeps_select id) (fun _ => .pure _) _
  | clearSelection => exact Edit.Within.bind Edit.keeps_clearSelection (fun _ => .pure _) _
  | edit id change => exact change.keeps_run { editor := e } h.ids_nodup s id
  | createText _ _ | createBar _ | createShape _ _ | createImage _ | createRotator _
  | create _ _ | place _ => cases hop

/-! ## Events -/

namespace Editor

/-- Whether an event writes a geometry: a drag that finds its object, or an edit of a box that
succeeds. -/
def places (e : Editor) : Event → Bool
  | .operation s op => op.places && (e.step s op).result.isOk
  | .drag h _ => e.canvas.isLive h

namespace Anchored

variable {e : Editor} {config : EditorConfig}

/-- The calls of an event on the canvas, and how many geometries they write. -/
theorem calls_after (h : e.Anchored) (event : Event) :
    ∃ ops, e.Calls ops (e.after event) ∧
      (e.canvas.writes ops).length = if e.places event then 1 else 0 := by
  cases event with
  | drag k p =>
    refine ⟨[.dragTo k p], .hear e (.dragTo k p), ?_⟩
    cases hg : e.canvas.geometry? k with
    | none =>
      have hdead : e.canvas.isLive k = false := by
        by_contra hlive
        obtain ⟨g, hsome⟩ := Canvas.isLive_iff_geometry?.1 (by simpa using hlive)
        simp [hg] at hsome
      simp [Canvas.writes, Canvas.write?, hg, places, hdead]
    | some g =>
      simp [Canvas.writes, Canvas.write?, hg, places, Canvas.isLive_of_geometry_eq hg]
  | operation s op =>
    cases hplaces : op.places with
    | false =>
      obtain ⟨ops, hcalls, hwrites⟩ := (op.quiet_run hplaces s).writesAt { editor := e }
      exact ⟨ops, hcalls, by simpa [places, hplaces] using hwrites⟩
    | true =>
      cases op with
      | edit id change =>
        obtain ⟨ops, hcalls, hwrites⟩ :=
          change.placesAt_run hplaces { editor := e } h.isLive s id
        refine ⟨ops, hcalls, ?_⟩
        rw [places, hplaces, Bool.true_and]
        exact hwrites
      | _ => cases hplaces

/-- What an event does to the layers: it keeps them, or it creates one, or it chooses a tool. -/
theorem cases_after (h : e.Anchored) (event : Event) :
    e.Keeps (e.after event) ∨
    (∃ s tool, event = .operation s (.setTool tool) ∧ e.after event = { e with tool }) ∨
    ∃ s op new?, event = .operation s op ∧ (op.creating? s e).isSome = true ∧
      e.after event = ((op.failed e).created new?).2 := by
  cases event with
  | drag k p => exact .inl (.of_eq rfl rfl rfl rfl (e.canvas.handles_dragTo k p))
  | operation s op =>
    cases hcreating : op.creating? s e with
    | none =>
      by_cases htool : ∃ tool, op = .setTool tool
      · obtain ⟨tool, rfl⟩ := htool
        exact .inr (.inl ⟨s, tool, rfl, rfl⟩)
      · exact .inl (op.keeps_run h hcreating fun tool heq => htool ⟨tool, heq⟩)
    | some r =>
      refine .inr (.inr ⟨s, op, r.toOption.join, rfl, by rw [hcreating]; rfl, ?_⟩)
      rw [Editor.after, step_of_creating? h.id_le_lastId hcreating]
      cases r <;> rfl

/-- Every layer stays anchored, whatever happens. -/
theorem after (h : e.Anchored) (event : Event) : (e.after event).Anchored := by
  obtain ⟨ops, hcalls, -⟩ := h.calls_after event
  rcases h.cases_after event with hkeeps | ⟨s, tool, rfl, heq⟩ | ⟨s, op, new?, rfl, -, heq⟩
  · exact h.of_keeps hkeeps hcalls
  · rw [heq]
    exact { h with }
  · rw [heq]
    exact (h.failed op).created new?

theorem run (h : e.Anchored) (events : List Event) : (e.run events).Anchored := by
  induction events using List.reverseRecOn with
  | nil => exact h
  | append_singleton events event ih =>
    rw [run_concat]
    exact ih.after event

end Anchored

end Editor

end WidgetSkin
