import Mathlib.Data.List.Nodup
import WidgetSkin.Json.Value

/-!
# Slots of records

An object gives the slots of a record by the names of its fields: their order does not matter,
nor do members with other names, but no field may come twice.

## Main statements

* `Json.Value.slot?_perm`, `Json.Value.slot?_append` — what does not matter for a slot.
* `Json.Value.fields?_ofMembers` — a record that is written is read by the names of its fields.
* `Json.Value.exists_slots_of_object`, `Json.Value.exists_slots_of_array` — where slots that were
  read come from.
-/

namespace WidgetSkin.Json.Value

variable {name : String} {names : List String} {members : List (Option String × Value)}

/-! ## One slot -/

theorem filter_key_eq_nil (h : some name ∉ members.map Prod.fst) :
    members.filter (fun m => m.1 == some name) = [] := by
  rw [List.filter_eq_nil_iff]
  intro m hm hkey
  refine h (List.mem_map.2 ⟨m, hm, ?_⟩)
  simpa using hkey

theorem slot?_of_notMem (h : some name ∉ members.map Prod.fst) :
    slot? members name = some none := by
  rw [slot?, filter_key_eq_nil h]

/-- The value in a slot is that of every member with the name. -/
theorem slot?_of_mem {v : Value} (h : (some name, v) ∈ members) {slot : Option Value}
    (hslot : slot? members name = some slot) : slot = some v := by
  have hmem : (some name, v) ∈ members.filter fun m => m.1 == some name :=
    List.mem_filter.2 ⟨h, by simp⟩
  unfold slot? at hslot
  split at hslot
  · next hnil => simp [hnil] at hmem
  · next m hsingle =>
    rw [hsingle, List.mem_singleton] at hmem
    subst hmem
    exact (Option.some.inj hslot).symm
  · cases hslot

/-- A field may not come twice. -/
theorem slot?_of_two_le_countP (h : 2 ≤ members.countP fun m => m.1 == some name) :
    slot? members name = none := by
  rw [List.countP_eq_length_filter] at h
  unfold slot?
  split
  · next hnil => simp [hnil] at h
  · next hsingle => simp [hsingle] at h
  · rfl

/-- The order of members does not matter. -/
theorem slot?_perm {others : List (Option String × Value)} (h : members.Perm others)
    (name : String) : slot? members name = slot? others name := by
  have hnamed := h.filter fun m => m.1 == some name
  unfold slot?
  -- as long as there is at most one, lists of the same members are the same
  split
  · next hnil =>
    rw [hnil] at hnamed
    rw [List.nil_perm.1 hnamed]
  · next m hsingle =>
    rw [hsingle] at hnamed
    rw [← List.singleton_perm.1 hnamed]
  · next hnil hsingle =>
    split
    · next hnil' => exact absurd (List.perm_nil.1 (hnil' ▸ hnamed)) hnil
    · next m hsingle' => exact absurd (List.perm_singleton.1 (hsingle' ▸ hnamed)) (hsingle m)
    · rfl

/-- Members with other names do not matter. -/
theorem slot?_append {others : List (Option String × Value)}
    (h : some name ∉ others.map Prod.fst) :
    slot? (members ++ others) name = slot? members name := by
  rw [slot?, slot?, List.filter_append, filter_key_eq_nil h, List.append_nil]

theorem slot?_eq_lookup {members : List (String × Value)} (h : (members.map Prod.fst).Nodup)
    (name : String) :
    slot? (members.map fun (key, v) => (some key, v)) name = some (List.lookup name members) := by
  induction members with
  | nil => rfl
  | cons m ms ih =>
    obtain ⟨key, v⟩ := m
    obtain ⟨hkey, hms⟩ := List.nodup_cons.1 h
    by_cases hname : name = key
    · subst hname
      have hother : some name ∉ (ms.map fun (key, v) => (some key, v)).map Prod.fst := by
        simpa using hkey
      simp [slot?, filter_key_eq_nil hother]
    · have hslot : slot? ((key, v) :: ms |>.map fun (key, v) => (some key, v)) name =
          slot? (ms.map fun (key, v) => (some key, v)) name := by
        simp [slot?, Ne.symm hname]
      rw [hslot, ih hms, List.lookup_cons, beq_eq_false_iff_ne.2 hname]

/-! ## All slots -/

/-- An object whose keys are texts is read slot by slot. -/
theorem fields?_object {slot : String → Option Value} (hkeys : ∀ m ∈ members, m.1.isSome = true)
    (h : ∀ name ∈ names, slot? members name = some (slot name)) :
    (object members).fields? names = some (names.map slot) := by
  rw [fields?, if_pos (List.all_eq_true.2 hkeys)]
  induction names with
  | nil => rfl
  | cons name names ih =>
    obtain ⟨hname, hnames⟩ := List.forall_mem_cons.1 h
    simp [hname, ih hnames]

/-- A record is read by the names of its fields, wherever they stand. -/
theorem fields?_ofMembers {members : List (String × Value)} (h : (members.map Prod.fst).Nodup)
    (names : List String) :
    (ofMembers members).fields? names = some (names.map (List.lookup · members)) :=
  fields?_object (List.forall_mem_map.2 fun _ _ => rfl) fun name _ => slot?_eq_lookup h name

theorem exists_slots_of_object {slots : List (Option Value)}
    (h : (object members).fields? names = some slots) :
    ∃ slot : String → Option Value, slots = names.map slot ∧
      ∀ name ∈ names, slot? members name = some (slot name) := by
  have hslots : names.mapM (slot? members) = some slots := by
    rw [fields?] at h
    split at h
    · exact h
    · cases h
  refine ⟨fun name => (slot? members name).getD none, ?_⟩
  clear h
  induction names generalizing slots with
  | nil =>
    obtain rfl : [] = slots := by simpa using hslots
    simp
  | cons name names ih =>
    simp only [List.mapM_cons, Option.bind_eq_bind, Option.bind_eq_some_iff, Option.pure_def,
      Option.some.injEq] at hslots
    obtain ⟨slot, hslot, rest, hrest, rfl⟩ := hslots
    obtain ⟨hmap, hall⟩ := ih hrest
    refine ⟨by simp [hslot, ← hmap], List.forall_mem_cons.2 ⟨by simp [hslot], hall⟩⟩

/-- Slots that are given in order belong to the names. -/
theorem exists_map_eq (hnodup : names.Nodup) {slots : List (Option Value)}
    (h : slots.length = names.length) : ∃ slot : String → Option Value, slots = names.map slot := by
  induction names generalizing slots with
  | nil => exact ⟨fun _ => none, List.length_eq_zero_iff.1 h⟩
  | cons name names ih =>
    obtain ⟨hname, hnames⟩ := List.nodup_cons.1 hnodup
    obtain ⟨first, rest, rfl⟩ := List.exists_cons_of_length_eq_add_one h
    obtain ⟨slot, rfl⟩ := ih hnames (by simpa using h)
    refine ⟨Function.update slot name first, ?_⟩
    have hrest : names.map (Function.update slot name first) = names.map slot :=
      List.map_congr_left fun other hother =>
        Function.update_of_ne (by rintro rfl; exact hname hother) _ _
    rw [List.map_cons, Function.update_self, hrest]

theorem exists_slots_of_array (hnodup : names.Nodup) {items : List Value}
    {slots : List (Option Value)} (h : (array items).fields? names = some slots) :
    ∃ slot : String → Option Value, slots = names.map slot ∧
      ∀ p ∈ names.zip items, slot p.1 = some p.2 := by
  rw [fields?] at h
  split at h
  · next hlength =>
    obtain rfl := Option.some.inj h
    have hslots : (items.map some ++ List.replicate (names.length - items.length) none).length =
        names.length := by
      simp
      omega
    obtain ⟨slot, hslot⟩ := exists_map_eq hnodup hslots
    refine ⟨slot, hslot, fun p hp => ?_⟩
    obtain ⟨i, hi, rfl⟩ := List.mem_iff_getElem.1 hp
    rw [List.length_zip] at hi
    have hitem := congrArg (·[i]?) hslot
    simpa [List.getElem?_append, List.getElem?_eq_getElem, show i < items.length by omega,
      show i < names.length by omega, eq_comm] using hitem
  · cases h

end WidgetSkin.Json.Value
