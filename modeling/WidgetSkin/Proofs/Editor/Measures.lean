import WidgetSkin.Proofs.Editor.Identity

/-!
# Measures of layers

A new text shows its own text, a new rotator shows the seconds, and all other layers begin
without a measure. A measure is bound only to layers of a kind that it is made for, and is never
taken away again. So every layer has a measure of its kind, and a bar has none as long as none
was bound to it.

## Main definitions

* `LayerKind.Suits` — the measures that layers of a kind may have.
* `Editor.measured?` — the layer that an event binds a measure to.

## Main statements

* `applicable_eq_ok_iff` — the measures that are accepted.
* `Sheet.Turn.suits` — an event keeps measures suited to kinds.
* `Editor.suits_run` — every layer of a history has a measure of its kind.
* `Editor.measure_eq_none_iff` — bars without a measure.
-/

namespace WidgetSkin

/-! ## Measures for kinds -/

/-- Whether the catalog has a measure for layers of a kind. -/
def Catalog.Offers (kind : LayerKind) (m : String) : Prop :=
  ∃ entry, Catalog.find? m = some entry ∧ entry.kind = kind

/-- Whether a layer of a kind may have a measure, or none. A text shows its own text or a
measure, a rotator shows a measure, a bar may show one, and images and shapes show none. -/
def LayerKind.Suits (measure : Option String) : LayerKind → Prop
  | .text => measure = some Catalog.customText ∨ ∃ m, measure = some m ∧ Catalog.Offers .text m
  | .rotator => ∃ m, measure = some m ∧ Catalog.Offers .rotator m
  | .bar => measure = none ∨ ∃ m, measure = some m ∧ Catalog.Offers .bar m
  | .image | .shape => measure = none

/-- A measure is accepted if it is the text's own, or one of the catalog for the kind. -/
theorem applicable_eq_ok_iff {m : String} {kind : LayerKind} {u : Unit} :
    applicable m kind = .ok u ↔
      if m = Catalog.customText then kind = .text else Catalog.Offers kind m := by
  unfold applicable Catalog.Offers
  split
  · simp
  · cases Catalog.find? m <;> simp

/-- The catalog has no measures for images and shapes. -/
theorem Catalog.not_offers {kind : LayerKind} (hkind : kind = .image ∨ kind = .shape) (m : String) :
    ¬ Catalog.Offers kind m := by
  have hentries : ∀ entry ∈ entries, entry.kind ≠ .image ∧ entry.kind ≠ .shape := by decide
  rintro ⟨entry, hentry, rfl⟩
  have hnone := hentries entry (List.mem_of_find?_eq_some hentry)
  exact hkind.elim hnone.1 hnone.2

namespace LayerKind

theorem suits_default (kind : LayerKind) : kind.Suits (Catalog.defaultFor? kind) := by
  cases kind with
  | text => exact .inl rfl
  | rotator =>
    have hkind : (Catalog.find? "rotator-time-second").map MeasureEntry.kind = some .rotator := by
      decide +kernel
    exact ⟨_, rfl, Option.map_eq_some_iff.1 hkind⟩
  | bar => exact .inl rfl
  | image | shape => rfl

/-- A measure that is accepted for a kind suits it. -/
theorem suits_of_applicable {m : String} {kind : LayerKind} {u : Unit}
    (h : applicable m kind = .ok u) : kind.Suits (some m) := by
  rw [applicable_eq_ok_iff] at h
  split at h
  · next hcustom =>
    subst h
    exact .inl (congrArg some hcustom)
  · cases kind with
    | text => exact .inr ⟨m, rfl, h⟩
    | rotator => exact ⟨m, rfl, h⟩
    | bar => exact .inr ⟨m, rfl, h⟩
    | image => exact absurd h (Catalog.not_offers (.inl rfl) m)
    | shape => exact absurd h (Catalog.not_offers (.inr rfl) m)

end LayerKind

/-- An edit binds a measure that is accepted, or leaves the measure as it is. -/
theorem LayerEdit.measure_of_revise? {s : Surroundings} {r r' : Record} {change : LayerEdit}
    (h : change.revise? s r = some r') :
    (∃ m, change = .measure m ∧ applicable m r.kind = .ok () ∧ r'.measure = some m) ∨
      r'.measure = r.measure := by
  have hcontent : ∀ {f : Payload → Option Payload}, r.withContent? f = some r' →
      r'.measure = r.measure := by
    intro f hf
    obtain ⟨payload, -, rfl⟩ := Option.map_eq_some_iff.1 hf
    rfl
  cases change with
  | measure m =>
    left
    rw [revise?] at h
    cases happlicable : applicable m r.kind with
    | error fault =>
      rw [happlicable] at h
      cases h
    | ok u =>
      rw [happlicable] at h
      cases h
      exact ⟨m, rfl, happlicable, rfl⟩
  | text _ | font _ | fontSize _ | textFill _ | barFill _ _ | shapeFill _ =>
    exact .inr (hcontent h)
  | imageSource path =>
    right
    rw [revise?] at h
    split at h
    · obtain ⟨size, -, rfl⟩ := Option.map_eq_some_iff.1 h
      rfl
    · cases h
  | property name value =>
    right
    rw [revise?] at h
    split at h
    · obtain ⟨turned, -, rfl⟩ := Option.map_eq_some_iff.1 h
      rfl
    all_goals cases h
  | position _ | size _ | scale _ | angle _ | toggleVisibility | toggleLock =>
    right
    cases h
    rfl

namespace Sheet

variable {p q : Sheet} {event : Event}

/-- The layer that an event binds a measure to, if the measure is accepted. -/
def measured? (p : Sheet) (event : Event) : Option LayerId :=
  event.bound?.bind fun bound =>
    ((p.record? bound.1).filter fun r => (applicable bound.2 r.kind).isOk).map fun r => r.id

theorem measured?_eq_none (h : event.bound? = none) : p.measured? event = none := by
  rw [measured?, h]
  rfl

theorem record?_eq_some {id : LayerId} {r : Record} (h : p.record? id = some r) :
    r ∈ p.records ∧ r.id = id :=
  ⟨List.mem_of_find?_eq_some h, by simpa using List.find?_some h⟩

theorem exists_record_of_measured? {id : LayerId} (h : p.measured? event = some id) :
    ∃ r ∈ p.records, r.id = id := by
  obtain ⟨bound, -, h⟩ := Option.bind_eq_some_iff.1 h
  obtain ⟨r, hr, hid⟩ := Option.map_eq_some_iff.1 h
  exact ⟨r, (record?_eq_some (Option.filter_eq_some_iff.1 hr).1).1, hid⟩

/-- Nothing is bound to a layer that no measure is for. -/
theorem measured?_ne {id : LayerId} (h : ∀ m, event.bound? ≠ some (id, m)) :
    p.measured? event ≠ some id := by
  intro hmeasured
  obtain ⟨bound, hbound, hmeasured⟩ := Option.bind_eq_some_iff.1 hmeasured
  obtain ⟨r, hr, rfl⟩ := Option.map_eq_some_iff.1 hmeasured
  have hid := (record?_eq_some (Option.filter_eq_some_iff.1 hr).1).2
  exact h bound.2 (hbound.trans (congrArg some (Prod.ext hid.symm rfl)))

theorem measured?_measure (hnodup : p.order.Nodup) {r : Record} (hr : r ∈ p.records)
    (s : Surroundings) (m : String) :
    p.measured? (.operation s (.edit r.id (.measure m))) =
      if (applicable m r.kind).isOk then some r.id else none := by
  change ((p.record? r.id).filter fun r => (applicable m r.kind).isOk).map (fun r => r.id) = _
  rw [record?_eq hnodup hr, Option.filter_some]
  split <;> rfl

/-- What an event does to the measure of a record: it binds one of the record's kind, or leaves
it as it is. -/
def Rebound (p : Sheet) (event : Event) (r r' : Record) : Prop :=
  if p.measured? event = some r.id then ∃ m, r'.measure = some m ∧ r.kind.Suits (some m)
  else r'.measure = r.measure

theorem rebound_of_ne {r r' : Record} (hne : p.measured? event ≠ some r.id)
    (h : r'.measure = r.measure) : p.Rebound event r r' := by
  rwa [Rebound, if_neg hne]

theorem rebound_of_quiet {r r' : Record} (hbound : event.bound? = none)
    (h : r'.measure = r.measure) : p.Rebound event r r' :=
  rebound_of_ne (by simp [measured?_eq_none hbound]) h

theorem rebound_edit (hnodup : p.order.Nodup) {r : Record} (hr : r ∈ p.records)
    (s : Surroundings) (change : LayerEdit) :
    p.Rebound (.operation s (.edit r.id change)) r ((change.revise? s r).getD r) := by
  by_cases hmeasure : ∃ m, change = .measure m
  · obtain ⟨m, rfl⟩ := hmeasure
    cases happlicable : applicable m r.kind with
    | ok u =>
      have hmeasured : p.measured? (.operation s (.edit r.id (.measure m))) = some r.id := by
        rw [measured?_measure hnodup hr, happlicable]
        rfl
      rw [Rebound, if_pos hmeasured, LayerEdit.revise?, happlicable]
      exact ⟨m, rfl, LayerKind.suits_of_applicable happlicable⟩
    | error fault =>
      have hmeasured : p.measured? (.operation s (.edit r.id (.measure m))) = none := by
        rw [measured?_measure hnodup hr, happlicable]
        rfl
      refine rebound_of_ne (by simp [hmeasured]) ?_
      rw [LayerEdit.revise?, happlicable]
      rfl
  · refine rebound_of_quiet ?_ ?_
    · cases change with
      | measure m => exact absurd ⟨m, rfl⟩ hmeasure
      | _ => rfl
    · cases hrevise : change.revise? s r with
      | none => rfl
      | some r' =>
        rcases LayerEdit.measure_of_revise? hrevise with ⟨m, hm, -⟩ | hsame
        · exact absurd ⟨m, hm⟩ hmeasure
        · exact hsame

/-- After an event a layer is new, or it was there and at most its measure was bound. -/
theorem Turn.rebound (hturn : p.Turn event q) (hnodup : p.order.Nodup) {r' : Record}
    (hr' : r' ∈ q.records) :
    (p.newborn? event = some r' ∧ p.measured? event = none) ∨
      ∃ r ∈ p.records, r'.identity = r.identity ∧ p.Rebound event r r' := by
  cases hturn.origin hr' with
  | born hborn hbound => exact .inl ⟨hborn, measured?_eq_none hbound⟩
  | kept hr hbound => exact .inr ⟨r', hr, rfl, rebound_of_ne (measured?_ne hbound) rfl⟩
  | @edited s change r hr hcheck =>
    exact .inr ⟨r, hr, change.identity_getD_revise? s r, rebound_edit hnodup hr s change⟩
  | @dragged position r hr => exact .inr ⟨r, hr, rfl, rebound_of_quiet rfl rfl⟩

/-- An event keeps measures suited to kinds. -/
theorem Turn.suits (hturn : p.Turn event q) (hnodup : p.order.Nodup)
    (h : ∀ r ∈ p.records, r.kind.Suits r.measure) : ∀ r ∈ q.records, r.kind.Suits r.measure := by
  intro r' hr'
  rcases hturn.rebound hnodup hr' with ⟨hborn, -⟩ | ⟨r, hr, hidentity, hrebound⟩
  · obtain ⟨new, -, rfl⟩ := Option.map_eq_some_iff.1 hborn
    exact LayerKind.suits_default new.payload.kind
  · have hkind : r'.kind = r.kind := congrArg Identity.kind hidentity
    rw [hkind]
    unfold Rebound at hrebound
    split at hrebound
    · obtain ⟨m, hm, hsuits⟩ := hrebound
      rwa [hm]
    · rw [hrebound]
      exact h r hr

/-- The layers that measures were bound to, and the bars that are left without one. -/
structure Bindings (p : Sheet) (bound : List LayerId) : Prop where
  le_lastId : ∀ id ∈ bound, id.val ≤ p.lastId
  measure_eq_none_iff : ∀ r ∈ p.records, r.kind = .bar → (r.measure = none ↔ r.id ∉ bound)

/-- After one more event one more measure was bound, or none. -/
theorem Bindings.turn {bound : List LayerId} (h : p.Bindings bound) (hturn : p.Turn event q)
    (hnodup : p.order.Nodup) (hle : ∀ r ∈ p.records, r.id.val ≤ p.lastId) :
    q.Bindings (bound ++ (p.measured? event).toList) where
  le_lastId id hid := by
    have hgrows : p.lastId ≤ q.lastId := by
      rw [hturn.lastId_eq]
      exact Nat.le_add_right _ _
    rcases List.mem_append.1 hid with hold | hnew
    · exact Nat.le_trans (h.le_lastId id hold) hgrows
    · obtain ⟨r, hr, rfl⟩ := exists_record_of_measured? (Option.mem_toList.1 hnew)
      exact Nat.le_trans (hle r hr) hgrows
  measure_eq_none_iff r' hr' hbar := by
    rcases hturn.rebound hnodup hr' with ⟨hborn, hnone⟩ | ⟨r, hr, hidentity, hrebound⟩
    · obtain ⟨new, -, rfl⟩ := Option.map_eq_some_iff.1 hborn
      have hkind : new.payload.kind = .bar := hbar
      have hfresh : (p.nextRecord new).id ∉ bound := fun hmem =>
        Nat.not_succ_le_self _ (h.le_lastId _ hmem)
      have hmeasure : (p.nextRecord new).measure = none := by
        rw [nextRecord, hkind]
        rfl
      rw [hnone, Option.toList_none, List.append_nil]
      exact iff_of_true hmeasure hfresh
    · have hid : r'.id = r.id := congrArg Identity.id hidentity
      have hkind : r.kind = .bar := (congrArg Identity.kind hidentity).symm.trans hbar
      unfold Rebound at hrebound
      split at hrebound
      · next hmeasured =>
        obtain ⟨m, hm, -⟩ := hrebound
        rw [hm, hid, hmeasured]
        simp
      · next hmeasured =>
        rw [hrebound, hid, h.measure_eq_none_iff r hr hkind]
        simp [Option.mem_toList, hmeasured]

end Sheet

namespace Editor

/-- The layer that an event binds a measure to, if the event succeeds. -/
def measured? (e : Editor) : Event → Option LayerId
  | .operation s (.edit id (.measure m)) =>
    if (e.step s (.edit id (.measure m))).result.isOk then some id else none
  | _ => none

namespace InStep

variable {e : Editor}

theorem measured?_eq (he : e.InStep) (event : Event) :
    e.measured? event = e.sheet.measured? event := by
  cases hbound : event.bound? with
  | none =>
    rw [Sheet.measured?_eq_none hbound]
    unfold measured?
    split
    · cases hbound
    · rfl
  | some bound =>
    unfold Event.bound? at hbound
    split at hbound
    · next s id m =>
      change (if (e.step s (.edit id (.measure m))).result.isOk then some id else none) =
        ((e.sheet.record? id).filter fun r => (applicable m r.kind).isOk).map fun r => r.id
      rw [he.step_result, EditorOp.outcome, LayerEdit.outcome, record?_sheet]
      cases hfound : e.layer? id with
      | none =>
        rw [requireLayer, hfound]
        rfl
      | some l =>
        obtain ⟨hl, rfl⟩ := mem_of_layer? hfound
        obtain ⟨g, -, hg⟩ := he.geometry_eq hl
        rw [requireLayer_eq_ok_iff.2 hfound, hg, Option.map_some, Option.filter_some]
        have hkind : (e.recordOf l).kind = l.kind := rfl
        rw [hkind, LayerEdit.check, ok_bind, ok_bind, ok_bind, LayerEdit.rewrite]
        cases applicable m l.kind <;> rfl
    · cases hbound

end InStep

variable {config : EditorConfig} {events : List Event} {l : Layer}

/-- Every layer of a history has a measure that suits its kind. -/
theorem suits_run (config : EditorConfig) (events : List Event) :
    ∀ l ∈ ((Editor.new config).run events).layers, l.kind.Suits l.measure := by
  have hrecords : ∀ r ∈ ((Editor.new config).run events).sheet.records,
      r.kind.Suits r.measure := by
    induction events using List.reverseRecOn with
    | nil => exact List.forall_mem_nil _
    | append_singleton events event ih =>
      have he := inStep_run config events
      rw [run_concat]
      exact (he.turn event).suits he.order_sheet_nodup ih
  exact fun l hl => hrecords (recordOf _ l) (List.mem_map_of_mem hl)

theorem bindings_run (config : EditorConfig) (events : List Event) :
    ((Editor.new config).run events).sheet.Bindings
      (notes measured? (Editor.new config) events) := by
  induction events using List.reverseRecOn with
  | nil => exact ⟨List.forall_mem_nil _, List.forall_mem_nil _⟩
  | append_singleton events event ih =>
    have he := inStep_run config events
    rw [run_concat, notes_concat, he.measured?_eq]
    refine ih.turn (he.turn event) he.order_sheet_nodup fun r hr => ?_
    obtain ⟨l, hl, rfl⟩ := List.mem_map.1 hr
    exact he.id_le_lastId l hl

/-- A bar has no measure as long as none was bound to it. -/
theorem measure_eq_none_iff (hl : l ∈ ((Editor.new config).run events).layers)
    (hbar : l.kind = .bar) :
    l.measure = none ↔ l.id ∉ notes measured? (Editor.new config) events :=
  (bindings_run config events).measure_eq_none_iff (recordOf _ l) (List.mem_map_of_mem hl) hbar

end Editor

end WidgetSkin
