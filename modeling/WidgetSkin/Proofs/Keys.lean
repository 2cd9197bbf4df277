import Mathlib.Data.List.Nodup

/-!
# Lists of items with keys

Items with different keys are found under them, in whatever order they lie.

## Main statements

* `find?_key_eq_some_iff` — the item under a key.
* `filterMap_find?_perm` — the items under another order of the keys.
-/

namespace WidgetSkin

variable {α κ : Type} [DecidableEq κ] {key : α → κ} {as : List α}

/-- If keys differ, every item is found under its own. -/
theorem find?_key_eq_some_iff (hnodup : (as.map key).Nodup) {k : κ} {a : α} :
    (as.find? fun b => key b = k) = some a ↔ a ∈ as ∧ key a = k := by
  refine ⟨fun h => ⟨List.mem_of_find?_eq_some h, by simpa using List.find?_some h⟩, ?_⟩
  rintro ⟨ha, rfl⟩
  cases hfound : as.find? fun b => key b = key a with
  | none => simpa using List.find?_eq_none.1 hfound a ha
  | some b =>
    have hkey : key b = key a := by simpa using List.find?_some hfound
    rw [List.inj_on_of_nodup_map hnodup ha (List.mem_of_find?_eq_some hfound) hkey.symm]

/-- Items are those that are found under their keys. -/
theorem filterMap_find?_map_key (hnodup : (as.map key).Nodup) {bs : List α}
    (hbs : ∀ b ∈ bs, b ∈ as) :
    ((bs.map key).filterMap fun k => as.find? fun a => key a = k) = bs := by
  rw [List.filterMap_map]
  have hfound : ∀ b ∈ bs, ((fun k => as.find? fun a => key a = k) ∘ key) b = some b :=
    fun b hb => (find?_key_eq_some_iff hnodup).2 ⟨hbs b hb, rfl⟩
  rw [List.filterMap_congr hfound, List.filterMap_some]

/-- The items under another order of the keys are all items. -/
theorem filterMap_find?_perm (hnodup : (as.map key).Nodup) {ks : List κ}
    (hperm : ks.Perm (as.map key)) :
    (ks.filterMap fun k => as.find? fun a => key a = k).Perm as := by
  have hitems := hperm.filterMap fun k => as.find? fun a => key a = k
  rwa [filterMap_find?_map_key hnodup fun _ ha => ha] at hitems

end WidgetSkin
