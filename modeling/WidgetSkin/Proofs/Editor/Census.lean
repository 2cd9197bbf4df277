import WidgetSkin.Proofs.Editor.GivenName
import WidgetSkin.Proofs.Editor.Turn

/-!
# Births and deaths of layers

A layer is known by its identifier, its name, its kind and its object. No event changes these of
a layer that lives. New layers are numbered through, once all together and once by kind, and the
counters of a sheet are the numbers of births.

## Main definitions

* `Layer.identity` — what a layer is known by.
* `Numbered` — layers numbered through.
* `Sheet.Census` — a sheet whose layers are among some births.

## Main statements

* `Sheet.Turn.identities_perm` — what an event does to identities.
* `Numbered.ids_nodup`, `Numbered.names_nodup` — numbered layers are told apart.
* `Sheet.Census.turn` — one more event.
-/

namespace WidgetSkin

/-! ## Identities -/

/-- What a layer is known by. -/
structure Identity where
  id : LayerId
  name : String
  kind : LayerKind
  handle : Handle
deriving DecidableEq

/-- What a layer is known by. -/
def Layer.identity (l : Layer) : Identity :=
  ⟨l.id, l.name, l.kind, l.handle⟩

theorem LayerChange.Keeps.identity_eq {c : LayerChange} {l : Layer} (h : c.Keeps l) :
    c.layer.identity = l.identity := by
  rw [Layer.identity, h.id_eq, h.name_eq, h.kind_eq, h.handle_eq]
  rfl

/-- No edit changes what a record is known by. -/
theorem LayerEdit.identity_eq_of_revise? {s : Surroundings} {r r' : Record} {change : LayerEdit}
    (h : change.revise? s r = some r') : r'.identity = r.identity := by
  have hrecord := change.revise?_recordAt s r.toLayer r.geometry
  rw [show r.toLayer.recordAt r.geometry = r from rfl, h] at hrecord
  cases hc : change.rewrite s r.toLayer r.geometry with
  | error fault =>
    rw [hc] at hrecord
    cases hrecord
  | ok c =>
    rw [hc] at hrecord
    obtain rfl := Option.some.inj hrecord
    exact (LayerEdit.rewrite_keeps hc).identity_eq

theorem LayerEdit.identity_getD_revise? (s : Surroundings) (r : Record) (change : LayerEdit) :
    ((change.revise? s r).getD r).identity = r.identity := by
  cases hrevise : change.revise? s r with
  | none => rfl
  | some r' => exact identity_eq_of_revise? hrevise

namespace Sheet

variable {p q : Sheet} {event : Event}

/-- What the records are known by, the lowest first. -/
def identities (p : Sheet) : List Identity :=
  p.records.map fun r => r.identity

theorem identities_append (p : Sheet) (new? : Option Creation) :
    (p.append new?).identities =
      p.identities ++ (new?.map p.nextRecord).toList.map fun r => r.identity := by
  cases new? with
  | none => exact (List.append_nil _).symm
  | some new => exact List.map_append

theorem identities_rewrite {has : Record → Bool} {f : Record → Record}
    (hf : ∀ r, (f r).identity = r.identity) : (p.rewrite has f).identities = p.identities := by
  unfold identities rewrite
  rw [List.map_map]
  refine List.map_congr_left fun r _ => ?_
  rw [Function.comp_apply]
  split
  · exact hf r
  · rfl

/-- An event that neither creates nor deletes a layer leaves the identities, perhaps in another
order. -/
theorem identities_perm_of_perm (hcreation : p.creation? event = none)
    (hdeleted : event.deleted? = none) (hperm : q.identities.Perm p.identities) :
    q.identities.Perm
      ((p.identities.filter fun i => event.deleted? ≠ some i.id) ++
        (p.newborn? event).toList.map fun r => r.identity) := by
  simpa [newborn?, hcreation, hdeleted] using hperm

/-- An event takes away the layer that it deletes, adds the one that it creates, and changes
nothing that the others are known by. -/
theorem Turn.identities_perm (h : p.Turn event q) :
    q.identities.Perm
      ((p.identities.filter fun i => event.deleted? ≠ some i.id) ++
        (p.newborn? event).toList.map fun r => r.identity) := by
  cases h with
  | append tool hdeleted _ =>
    have hfilter : (p.identities.filter fun i => event.deleted? ≠ some i.id) = p.identities := by
      simp [hdeleted]
    rw [hfilter]
    exact .of_eq (identities_append { p with tool } _)
  | delete s id =>
    refine .of_eq ?_
    simp only [identities, List.filter_map, newborn?, creation?, EditorOp.creation?,
      Option.map_none, Option.toList_none, List.map_nil, List.append_nil]
    refine congrArg (List.map _) (List.filter_congr fun r _ => ?_)
    simp [Event.deleted?, Layer.identity, eq_comm]
  | arrange h hperm =>
    exact identities_perm_of_perm h.creation?_eq h.deleted?_eq (hperm.map _)
  | edit s id hcheck =>
    exact identities_perm_of_perm rfl rfl
      (.of_eq (identities_rewrite fun r => LayerEdit.identity_getD_revise? s r _))
  | drag h position =>
    exact identities_perm_of_perm rfl rfl (.of_eq (identities_rewrite fun r => rfl))
  | paint h background =>
    exact identities_perm_of_perm h.creation?_eq h.deleted?_eq (.refl _)

/-- The layer that an event creates is there after the event. -/
theorem Turn.newborn_mem (h : p.Turn event q) {r : Record} (hr : p.newborn? event = some r) :
    r ∈ q.records := by
  obtain ⟨new, hnew, rfl⟩ := Option.map_eq_some_iff.1 hr
  cases h with
  | append tool _ _ =>
    rw [hnew]
    exact List.mem_append_right p.records (List.mem_singleton_self _)
  | delete _ _ | edit _ _ _ | drag _ _ => cases hnew
  | arrange hquiet _ | paint hquiet _ =>
    rw [hquiet.creation?_eq] at hnew
    cases hnew

/-- Every birth is counted, and nothing else is. -/
theorem Turn.lastId_eq (h : p.Turn event q) :
    q.lastId = p.lastId + (p.newborn? event).toList.length := by
  cases h with
  | append tool _ _ =>
    rw [newborn?]
    cases p.creation? event <;> rfl
  | delete _ _ | edit _ _ _ | drag _ _ => rfl
  | arrange hquiet _ | paint hquiet _ => rw [newborn?, hquiet.creation?_eq]; rfl

/-- Every birth is counted for its kind, and nothing else is. -/
theorem Turn.named_eq (h : p.Turn event q) (kind : LayerKind) :
    q.named kind = p.named kind + (p.newborn? event).toList.countP (fun r => r.kind = kind) := by
  cases h with
  | append tool _ _ =>
    rw [newborn?]
    cases p.creation? event with
    | none => rfl
    | some new =>
      have hkind : (p.nextRecord new).kind = new.payload.kind := rfl
      simp only [Option.map_some, Option.toList_some, List.countP_singleton, hkind,
        decide_eq_true_eq]
      exact congrArg (p.named kind + ·) (if_congr eq_comm rfl rfl)
  | delete _ _ | edit _ _ _ | drag _ _ => rfl
  | arrange hquiet _ | paint hquiet _ => rw [newborn?, hquiet.creation?_eq]; rfl

end Sheet

/-! ## Numbered layers -/

/-- Layers in the order of their births, numbered through: each has the number of its birth as
its identifier, and the number among those of its kind in its name. -/
def Numbered (born : List Layer) : Prop :=
  ∀ earlier l later, born = earlier ++ l :: later →
    l.id = ⟨earlier.length + 1⟩ ∧
    l.name = l.kind.nthName (earlier.countP (fun m => m.kind = l.kind) + 1)

namespace Numbered

variable {born : List Layer} {l : Layer}

theorem nil : Numbered [] := by
  intro earlier l later h
  simp at h

/-- The next birth has the next numbers. -/
theorem concat_iff : Numbered (born ++ [l]) ↔
    Numbered born ∧ l.id = ⟨born.length + 1⟩ ∧
      l.name = l.kind.nthName (born.countP (fun m => m.kind = l.kind) + 1) := by
  constructor
  · intro h
    refine ⟨fun earlier m later hborn => ?_, h born l [] rfl⟩
    exact h earlier m (later ++ [l]) (by simp [hborn])
  · rintro ⟨h, hid, hname⟩ earlier m later hborn
    rcases List.eq_nil_or_concat later with rfl | ⟨later, last, rfl⟩
    · obtain ⟨rfl, hlast⟩ := List.append_inj' hborn rfl
      cases hlast
      exact ⟨hid, hname⟩
    · have hsplit : born = earlier ++ m :: later ∧ l = last := by
        have hborn' : born ++ [l] = (earlier ++ m :: later) ++ [last] := by simpa using hborn
        obtain ⟨hfront, hlast⟩ := List.append_inj' hborn' rfl
        exact ⟨hfront, List.singleton_injective hlast⟩
      exact h earlier m later hsplit.1

theorem id_le (h : Numbered born) (hl : l ∈ born) : l.id.val ≤ born.length := by
  obtain ⟨earlier, later, rfl⟩ := List.append_of_mem hl
  rw [(h earlier l later rfl).1]
  simp

/-- No identifier is given twice. -/
theorem ids_nodup (h : Numbered born) : (born.map Layer.id).Nodup := by
  induction born using List.reverseRecOn with
  | nil => exact .nil
  | append_singleton born l ih =>
    obtain ⟨h, hid, -⟩ := concat_iff.1 h
    rw [List.map_append, List.map_singleton]
    refine (ih h).append (List.nodup_singleton _) ?_
    rw [List.disjoint_singleton, List.mem_map]
    rintro ⟨m, hm, heq⟩
    have hle := h.id_le hm
    rw [heq, hid] at hle
    exact Nat.not_succ_le_self _ hle

/-- No name is given twice, not even to layers of different kinds. -/
theorem names_nodup (h : Numbered born) : (born.map Layer.name).Nodup := by
  induction born using List.reverseRecOn with
  | nil => exact .nil
  | append_singleton born l ih =>
    obtain ⟨h, -, hname⟩ := concat_iff.1 h
    rw [List.map_append, List.map_singleton]
    refine (ih h).append (List.nodup_singleton _) ?_
    rw [List.disjoint_singleton, List.mem_map]
    rintro ⟨m, hm, heq⟩
    -- A layer of the same kind before `l` has a smaller number.
    obtain ⟨earlier, later, rfl⟩ := List.append_of_mem hm
    rw [(h earlier m later rfl).2, hname, LayerKind.nthName_inj] at heq
    obtain ⟨hkind, hnumber⟩ := heq
    simp [List.countP_append, hkind] at hnumber

end Numbered

/-! ## Births so far -/

/-- A sheet that comes after some births: they are numbered through and counted, and every layer
is one of them. -/
structure Sheet.Census (p : Sheet) (born : List Layer) : Prop where
  numbered : Numbered born
  lastId_eq : p.lastId = born.length
  named_eq : ∀ kind, p.named kind = born.countP fun l => l.kind = kind
  exists_birth : ∀ i ∈ p.identities, ∃ l ∈ born, l.identity = i

namespace Sheet.Census

variable {p q : Sheet} {born : List Layer} {event : Event}

theorem new (config : EditorConfig) : (Sheet.new config).Census [] where
  numbered := .nil
  lastId_eq := rfl
  named_eq _ := rfl
  exists_birth := List.forall_mem_nil _

/-- After one more event there is one more birth, or none. -/
theorem turn (h : p.Census born) (hturn : p.Turn event q) :
    q.Census (born ++ (p.newborn? event).toList.map Record.toLayer) where
  numbered := by
    unfold newborn?
    cases p.creation? event with
    | none => simpa using h.numbered
    | some new =>
      refine Numbered.concat_iff.2 ⟨h.numbered, ?_, ?_⟩
      · exact congrArg (fun n => LayerId.mk (n + 1)) h.lastId_eq
      · exact congrArg (fun n => new.payload.kind.nthName (n + 1)) (h.named_eq new.payload.kind)
  lastId_eq := by rw [hturn.lastId_eq, h.lastId_eq, List.length_append, List.length_map]
  named_eq kind := by
    rw [hturn.named_eq, h.named_eq, List.countP_append, List.countP_map]
    rfl
  exists_birth i hi := by
    rcases List.mem_append.1 (hturn.identities_perm.mem_iff.1 hi) with hold | hnew
    · obtain ⟨l, hl, hidentity⟩ := h.exists_birth i (List.mem_filter.1 hold).1
      exact ⟨l, List.mem_append_left _ hl, hidentity⟩
    · obtain ⟨r, hr, rfl⟩ := List.mem_map.1 hnew
      exact ⟨r.toLayer, List.mem_append_right _ (List.mem_map_of_mem hr), rfl⟩

end Sheet.Census

end WidgetSkin
