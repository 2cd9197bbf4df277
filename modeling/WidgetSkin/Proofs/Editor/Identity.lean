import WidgetSkin.Proofs.Editor.Census

/-!
# Identities of layers

Over a whole history, layers are numbered in the order in which they are created. Creations that
fail or come to nothing are not counted, and numbers of deleted layers are not given again. What
a layer is known by stays the same as long as it lives.

## Main definitions

* `Editor.given?` — the identifier that an event answers for a layer that it created.
* `Editor.newborn?` — that layer, as it was right after the event.

## Main statements

* `Editor.InStep.newborn?_eq` — what is created is what the sheet says.
* `Editor.census_run` — the births of a history.
* `Editor.identities_run` — identifiers, names and objects over a whole history.
-/

namespace WidgetSkin

/-- The identifier of the layer that was created, if one was. -/
def Answer.created? : Except Fault Answer → Option LayerId
  | .ok (.created id?) => id?
  | .ok .nothing | .ok (.flag _) | .error _ => none

/-- What an operation answers for a new layer is the next identifier. -/
theorem EditorOp.created?_outcome (s : Surroundings) (e : Editor) (op : EditorOp) :
    Answer.created? (Prod.fst <$> op.outcome s e) =
      (op.creation? s e.config e.tool).map fun _ => ⟨e.lastId + 1⟩ := by
  have hcreated : ∀ (e' : Editor) (r : Except Fault (Option Creation)), e'.lastId = e.lastId →
      Answer.created? (Prod.fst <$> (e'.created <$> r)) =
        r.toOption.join.map fun _ => ⟨e.lastId + 1⟩ := by
    intro e' r hlast
    match r with
    | .error _ | .ok none => rfl
    | .ok (some new) => exact congrArg (fun n => some (LayerId.mk (n + 1))) hlast
  cases op with
  | createText _ _ | createBar _ | createShape _ _ => rfl
  | createImage _ | createRotator _ | create _ _ => exact hcreated e _ rfl
  | place point =>
    rw [outcome, creation?]
    cases e.tool.placementKind? with
    | none => rfl
    | some kind => exact hcreated { e with tool := .select } _ rfl
  | delete id | select id =>
    rw [outcome]
    cases e.layer? id <;> rfl
  | reorder order =>
    rw [outcome]
    split
    · cases Edit.requireDistinct e [] order <;> rfl
    · rfl
  | move id direction =>
    rw [outcome]
    cases e.requireLayer id <;> rfl
  | edit id change =>
    -- An edit answers something else than a new layer.
    cases houtcome : outcome s e (.edit id change) with
    | error fault => rfl
    | ok result =>
      obtain ⟨_, -, h⟩ := bind_eq_ok_iff.1 houtcome
      obtain ⟨l, -, h⟩ := bind_eq_ok_iff.1 h
      obtain ⟨g, -, h⟩ := bind_eq_ok_iff.1 h
      obtain ⟨c, hc, h⟩ := bind_eq_ok_iff.1 h
      cases h
      have hanswer := (LayerEdit.rewrite_keeps hc).answer_ne
      change Answer.created? (.ok c.answer) = none
      cases hcase : c.answer with
      | created id? => exact absurd hcase (hanswer id?)
      | nothing | flag b => rfl
  | setBackgroundSize width height =>
    rw [outcome]
    split <;> rfl
  | setTool _ | clearSelection | setBackgroundPosition _ | setBackdropColor _ => rfl

namespace Editor

/-- The identifier that an event answers for a layer that it created. -/
def given? (e : Editor) : Event → Option LayerId
  | .operation s op => Answer.created? (e.step s op).result
  | .drag .. => none

/-- The layer that an event created, as it was right after the event. -/
def newborn? (e : Editor) (event : Event) : Option Layer :=
  (e.given? event).bind (e.after event).layer?

namespace InStep

variable {e : Editor} {event : Event}

theorem step_result (he : e.InStep) (s : Surroundings) (op : EditorOp) :
    (e.step s op).result = Prod.fst <$> op.outcome s e := by
  cases houtcome : op.outcome s e with
  | error fault =>
    rw [Editor.step_of_error he houtcome]
    rfl
  | ok result =>
    rw [Editor.step_of_ok he houtcome]
    rfl

theorem after (he : e.InStep) (event : Event) : (e.after event).InStep := by
  cases event with
  | operation s op => exact he.step s op
  | drag h point => exact he.drag h point

theorem order_sheet_nodup (he : e.InStep) : e.sheet.order.Nodup := by
  have horder : e.sheet.order = e.layers.map Layer.id := List.map_map
  rw [horder]
  exact he.ids_nodup

theorem turn (he : e.InStep) (event : Event) : e.sheet.Turn event (e.after event).sheet := by
  rw [he.sheet_after]
  exact Sheet.turn_after he.order_sheet_nodup event

theorem given?_eq (he : e.InStep) (event : Event) :
    e.given? event = (e.sheet.creation? event).map fun _ => ⟨e.lastId + 1⟩ := by
  cases event with
  | drag h point => rfl
  | operation s op =>
    rw [given?, he.step_result]
    exact EditorOp.created?_outcome s e op

/-- A layer that is created is found under the identifier that is answered for it. -/
theorem newborn?_eq (he : e.InStep) (event : Event) :
    e.newborn? event = (e.sheet.newborn? event).map Record.toLayer := by
  rw [newborn?, he.given?_eq, Sheet.newborn?]
  cases hnew : e.sheet.creation? event with
  | none => rfl
  | some new =>
    have hrecord := (he.turn event).newborn_mem (congrArg (Option.map e.sheet.nextRecord) hnew)
    have hlayer := List.mem_map_of_mem (f := Record.toLayer) hrecord
    rw [map_toLayer_records] at hlayer
    exact (layer?_eq_some_iff (he.after event).ids_nodup).2 ⟨hlayer, rfl⟩

theorem given?_eq_newborn? (he : e.InStep) (event : Event) :
    e.given? event = (e.newborn? event).map Layer.id := by
  rw [he.newborn?_eq, he.given?_eq, Sheet.newborn?, Option.map_map, Option.map_map]
  rfl

/-- A layer that an event does not delete is known by the same after the event. -/
theorem exists_identity_eq_after (he : e.InStep) {l : Layer} (hl : l ∈ e.layers)
    (hlives : event.deleted? ≠ some l.id) :
    ∃ m ∈ (e.after event).layers, m.identity = l.identity := by
  have hold : l.identity ∈ e.sheet.identities :=
    List.mem_map.2 ⟨e.recordOf l, List.mem_map_of_mem hl, rfl⟩
  have hkept := (he.turn event).identities_perm.mem_iff.2
    (List.mem_append_left _ (List.mem_filter.2 ⟨hold, decide_eq_true hlives⟩))
  obtain ⟨r, hr, hidentity⟩ := List.mem_map.1 hkept
  refine ⟨r.toLayer, ?_, hidentity⟩
  rw [← map_toLayer_records]
  exact List.mem_map_of_mem hr

/-- A layer that is not deleted is known by the same as long as it lives. -/
theorem exists_identity_eq_run (he : e.InStep) {events : List Event} {l : Layer}
    (hl : l ∈ e.layers) (hlives : ∀ event ∈ events, event.deleted? ≠ some l.id) :
    ∃ m ∈ (e.run events).layers, m.identity = l.identity := by
  induction events generalizing e l with
  | nil => exact ⟨l, hl, rfl⟩
  | cons event events ih =>
    obtain ⟨hfirst, hrest⟩ := List.forall_mem_cons.1 hlives
    obtain ⟨m, hm, hidentity⟩ := he.exists_identity_eq_after hl hfirst
    have hid : m.id = l.id := congrArg Identity.id hidentity
    obtain ⟨n, hn, hsame⟩ := ih (he.after event) hm (hid ▸ hrest)
    exact ⟨n, hn, hsame.trans hidentity⟩

end InStep

/-! ## Every history -/

/-- The births of a history are numbered through and counted, and every layer is one of them. -/
theorem census_run (config : EditorConfig) (events : List Event) :
    ((Editor.new config).run events).sheet.Census (notes newborn? (Editor.new config) events) := by
  induction events using List.reverseRecOn with
  | nil => exact Sheet.Census.new config
  | append_singleton events event ih =>
    have he := inStep_run config events
    rw [run_concat, notes_concat, he.newborn?_eq, Option.toList_map]
    exact ih.turn (he.turn event)

/-- The answers of a history name the layers that were created. -/
theorem notes_given? (config : EditorConfig) (events : List Event) :
    notes given? (Editor.new config) events =
      (notes newborn? (Editor.new config) events).map Layer.id := by
  induction events using List.reverseRecOn with
  | nil => rfl
  | append_singleton events event ih =>
    rw [notes_concat, notes_concat, ih, (inStep_run config events).given?_eq_newborn?,
      List.map_append, Option.toList_map]

/-- Every layer is known by what it was known by when it was created. -/
theorem exists_birth (config : EditorConfig) (events : List Event) {l : Layer}
    (hl : l ∈ ((Editor.new config).run events).layers) :
    ∃ b ∈ notes newborn? (Editor.new config) events, b.identity = l.identity :=
  (census_run config events).exists_birth l.identity
    (List.mem_map.2 ⟨recordOf _ l, List.mem_map_of_mem hl, rfl⟩)

/-- The identities of layers over a whole history. The answers of creations are the identifiers
of the layers that are then there; these are numbered through, and named by kind and number, with
no number used for a creation that failed or came to nothing. No identifier and no name is given
twice. A layer that is there at some time was born, and if it is not deleted it is there at any
later time; whenever a layer with its identifier is there, that layer has its name, its kind and
its object. -/
theorem identities_run (config : EditorConfig) (events : List Event) :
    let born := notes newborn? (Editor.new config) events
    notes given? (Editor.new config) events = born.map Layer.id ∧
    (∀ earlier l later, born = earlier ++ l :: later →
      l.id = ⟨earlier.length + 1⟩ ∧
      l.name = l.kind.label ++ toString (earlier.countP (fun m => m.kind = l.kind) + 1)) ∧
    (born.map Layer.id).Nodup ∧ (born.map Layer.name).Nodup ∧
    ∀ past future, events = past ++ future → ∀ l ∈ ((Editor.new config).run past).layers,
      (∃ b ∈ born, b.identity = l.identity) ∧
      (∀ m ∈ ((Editor.new config).run events).layers, m.id = l.id → m.identity = l.identity) ∧
      ((∀ event ∈ future, event.deleted? ≠ some l.id) →
        ∃ m ∈ ((Editor.new config).run events).layers, m.identity = l.identity) := by
  intro born
  have hnumbered := (census_run config events).numbered
  refine ⟨notes_given? config events, hnumbered, hnumbered.ids_nodup, hnumbered.names_nodup, ?_⟩
  rintro past future rfl l hl
  have hbirth : ∃ b ∈ born, b.identity = l.identity := by
    obtain ⟨b, hb, hidentity⟩ := exists_birth config past hl
    refine ⟨b, ?_, hidentity⟩
    change b ∈ notes newborn? (Editor.new config) (past ++ future)
    rw [notes_append]
    exact List.mem_append_left _ hb
  refine ⟨hbirth, fun m hm hid => ?_, fun hlives => ?_⟩
  · -- Both were born, with one identifier.
    obtain ⟨b, hb, hl⟩ := hbirth
    obtain ⟨c, hc, hm⟩ := exists_birth config (past ++ future) hm
    have hbc : c.id = b.id :=
      (congrArg Identity.id hm).trans (hid.trans (congrArg Identity.id hl).symm)
    rw [← hl, ← hm, List.inj_on_of_nodup_map hnumbered.ids_nodup hc hb hbc]
  · rw [run_append]
    exact (inStep_run config past).exists_identity_eq_run hl hlives

/-- A bar that was deleted leaves its number unused, and an image that the user did not pick takes
none. -/
theorem identities_run_of_deleted_bar :
    let events : List Event :=
      [.operation .silent (.createBar ⟨10, 20⟩), .operation .silent (.delete ⟨1⟩),
        .operation .silent (.createImage ⟨10, 20⟩), .operation .silent (.createBar ⟨30, 40⟩)]
    let born := notes newborn? (Editor.new {}) events
    born.map Layer.name = ["Bar1", "Bar2"] ∧ born.map Layer.id = [⟨1⟩, ⟨2⟩] ∧
      notes given? (Editor.new {}) events = [⟨1⟩, ⟨2⟩] ∧ (born.map Layer.name).Nodup := by
  intro events born
  obtain ⟨hgiven, -, -, hnames, -⟩ := identities_run {} events
  have hids : born.map Layer.id = [⟨1⟩, ⟨2⟩] := by decide +kernel
  exact ⟨by decide +kernel, hids, hgiven.trans hids, hnames⟩

end Editor

end WidgetSkin
