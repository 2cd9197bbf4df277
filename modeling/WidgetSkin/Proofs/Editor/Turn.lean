import WidgetSkin.Proofs.Editor.Replay

/-!
# What an event can do

Every event does one of six things to a sheet: it appends a layer, deletes one, brings the layers
into another order, edits one, moves one, or paints the background. What holds of a sheet after
every history is shown for these six.

## Main definitions

* `Sheet.creation?`, `Event.deleted?`, `Event.bound?` — what an event creates, what it deletes,
  and the measure that it is to bind.
* `Sheet.Turn` — what an event can do to a sheet.
* `Sheet.Origin` — where a record comes from that is there after an event.

## Main statements

* `Sheet.turn_after` — an event does one of these things.
* `Sheet.Turn.origin` — the records after an event.
* `pushDown_perm`, `pullUp_perm`, `Sheet.filterMap_record?_perm` — orders are permutations.
-/

namespace WidgetSkin

theorem pushDown_perm {α : Type} (has : α → Bool) (as : List α) : (pushDown has as).Perm as := by
  fun_induction pushDown has as with
  | case1 a b rest => exact .swap a b rest
  | case2 a b rest h ih => exact ih.cons a
  | case3 => exact .refl _

theorem pullUp_perm {α : Type} (has : α → Bool) (as : List α) : (pullUp has as).Perm as := by
  fun_induction pullUp has as with
  | case1 a b rest => exact .swap a b rest
  | case2 a b rest h ih => exact ih.cons a
  | case3 => exact .refl _

/-- The identifier that an event takes from its layer. -/
def Event.deleted? : Event → Option LayerId
  | .operation _ (.delete id) => some id
  | _ => none

/-- The measure that an event is to bind, with the layer. -/
def Event.bound? : Event → Option (LayerId × String)
  | .operation _ (.edit id (.measure m)) => some (id, m)
  | _ => none

/-- A measure is bound to the layer that is edited. -/
theorem Event.eq_of_bound? {s : Surroundings} {id id' : LayerId} {change : LayerEdit} {m : String}
    (h : bound? (.operation s (.edit id change)) = some (id', m)) : id' = id := by
  cases change with
  | measure _ =>
    cases h
    rfl
  | _ => cases h

namespace Sheet

variable {p q : Sheet} {event : Event}

/-- What an event creates. -/
def creation? (p : Sheet) : Event → Option Creation
  | .operation s op => op.creation? s p.config p.tool
  | .drag .. => none

/-- The record that an event creates. -/
def newborn? (p : Sheet) (event : Event) : Option Record :=
  (p.creation? event).map p.nextRecord

/-- An event that neither creates nor deletes a layer, nor binds a measure. -/
structure Quiet (p : Sheet) (event : Event) : Prop where
  creation?_eq : p.creation? event = none
  deleted?_eq : event.deleted? = none
  bound?_eq : event.bound? = none

/-- What an event can do to a sheet. -/
inductive Turn (p : Sheet) : Event → Sheet → Prop where
  /-- A layer is appended, if one is created; a click uses its tool up. -/
  | append {event : Event} (tool : Tool) (hdeleted : event.deleted? = none)
    (hbound : event.bound? = none) :
    Turn p event ({ p with tool }.append (p.creation? event))
  | delete (s : Surroundings) (id : LayerId) :
    Turn p (.operation s (.delete id)) { p with records := p.records.filter fun r => r.id ≠ id }
  | arrange {event : Event} {records : List Record} (h : p.Quiet event)
    (hperm : records.Perm p.records) : Turn p event { p with records }
  | edit (s : Surroundings) (id : LayerId) {change : LayerEdit} (hcheck : change.check = .ok ()) :
    Turn p (.operation s (.edit id change))
      (p.rewrite (fun r => r.id = id) fun r => (change.revise? s r).getD r)
  | drag (h : Handle) (position : Point) :
    Turn p (.drag h position)
      (p.rewrite (fun r => r.handle = h) (Record.place · fun g => { g with position }))
  | paint {event : Event} (h : p.Quiet event) (background : Background) :
    Turn p event { p with background }

/-- Every record is found under its identifier. -/
theorem record?_eq (hnodup : p.order.Nodup) {r : Record} (hr : r ∈ p.records) :
    p.record? r.id = some r :=
  (find?_key_eq_some_iff hnodup).2 ⟨hr, rfl⟩

/-- The records under another order of the identifiers are all records. -/
theorem filterMap_record?_perm (hnodup : p.order.Nodup) {ids : List LayerId}
    (hperm : ids.Perm p.order) : (ids.filterMap p.record?).Perm p.records :=
  filterMap_find?_perm hnodup hperm

/-- A sheet that is left as it is. -/
theorem Turn.stay (h : p.Quiet event) : p.Turn event p := by
  have hturn : p.Turn event ({ p with tool := p.tool }.append (p.creation? event)) :=
    .append p.tool h.deleted?_eq h.bound?_eq
  rwa [h.creation?_eq] at hturn

/-- Every event does one of the six things. -/
theorem turn_after (hnodup : p.order.Nodup) (event : Event) : p.Turn event (p.after event) := by
  cases event with
  | drag h position => exact .drag h position
  | operation s op =>
    change p.Turn (.operation s op) (p.apply s op)
    cases op with
    | createText _ _ | createBar _ | createShape _ _ | createImage _ | createRotator _
    | create _ _ => exact .append p.tool rfl rfl
    | place point => exact .append .select rfl rfl
    | setTool tool => exact .append tool rfl rfl
    | delete id => exact .delete s id
    | reorder ids =>
      rw [apply]
      split
      · next hperm => exact .arrange ⟨rfl, rfl, rfl⟩ (filterMap_record?_perm hnodup hperm)
      · exact .stay ⟨rfl, rfl, rfl⟩
    | move id direction =>
      cases direction with
      | up => exact .arrange ⟨rfl, rfl, rfl⟩ (pullUp_perm _ _)
      | down => exact .arrange ⟨rfl, rfl, rfl⟩ (pushDown_perm _ _)
    | edit id change =>
      rw [apply]
      split
      · next hcheck =>
        obtain ⟨_, hcheck⟩ := exists_eq_ok_of_isOk hcheck
        exact .edit s id hcheck
      · next hcheck =>
        -- An edit that is refused for its data is not one of a measure.
        refine .stay ⟨rfl, rfl, ?_⟩
        cases change with
        | measure m => exact absurd rfl hcheck
        | _ => rfl
    | setBackgroundSize width height =>
      rw [apply]
      split
      · exact .stay ⟨rfl, rfl, rfl⟩
      · exact .paint ⟨rfl, rfl, rfl⟩ _
    | select _ | clearSelection => exact .stay ⟨rfl, rfl, rfl⟩
    | setBackgroundPosition _ | setBackdropColor _ => exact .paint ⟨rfl, rfl, rfl⟩ _

/-- Where a record comes from that is there after an event. -/
inductive Origin (p : Sheet) : Event → Record → Prop where
  | born {event : Event} {r : Record} (hborn : p.newborn? event = some r)
    (hbound : event.bound? = none) : Origin p event r
  /-- The record was there before, and no measure is bound to it. -/
  | kept {event : Event} {r : Record} (hr : r ∈ p.records)
    (hbound : ∀ m, event.bound? ≠ some (r.id, m)) : Origin p event r
  | edited (s : Surroundings) {change : LayerEdit} {r : Record} (hr : r ∈ p.records)
    (hcheck : change.check = .ok ()) :
    Origin p (.operation s (.edit r.id change)) ((change.revise? s r).getD r)
  | dragged (position : Point) {r : Record} (hr : r ∈ p.records) :
    Origin p (.drag r.handle position) (r.place fun g => { g with position })

/-- A record after an event is new, was there before, or is edited or dragged. -/
theorem Turn.origin (hturn : p.Turn event q) {r' : Record} (hr' : r' ∈ q.records) :
    p.Origin event r' := by
  have hkept : r' ∈ p.records → event.bound? = none → p.Origin event r' := fun hr hbound =>
    .kept hr (by simp [hbound])
  cases hturn with
  | append tool hdeleted hbound =>
    cases hnew : p.creation? event with
    | none =>
      rw [hnew] at hr'
      exact hkept hr' hbound
    | some new =>
      rw [hnew] at hr'
      rcases List.mem_append.1 hr' with hold | hborn
      · exact hkept hold hbound
      · refine .born ?_ hbound
        rw [List.mem_singleton.1 hborn, newborn?, hnew]
        rfl
  | delete s id => exact hkept (List.mem_filter.1 hr').1 rfl
  | arrange h hperm => exact hkept (hperm.mem_iff.1 hr') h.bound?_eq
  | paint h background => exact hkept hr' h.bound?_eq
  | drag h position =>
    obtain ⟨r, hr, rfl⟩ := List.mem_map.1 hr'
    split
    · next hhandle =>
      obtain rfl : r.handle = h := by simpa using hhandle
      exact .dragged position hr
    · exact .kept hr nofun
  | @edit s id change hcheck =>
    obtain ⟨r, hr, rfl⟩ := List.mem_map.1 hr'
    split
    · next hid =>
      obtain rfl : r.id = id := by simpa using hid
      exact .edited s hr hcheck
    · next hid =>
      exact .kept hr fun m hm => hid (decide_eq_true (Event.eq_of_bound? hm))

end Sheet

end WidgetSkin
