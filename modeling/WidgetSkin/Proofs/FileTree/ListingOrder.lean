import WidgetSkin.Proofs.FileTree.Additions
import WidgetSkin.Proofs.Keys

/-!
# The order of a listing

Two trees can hold the same files and list them in different orders. What is put at different
places gives such trees, in whatever order it is put.

## Main definitions

* `FileTree.SameFiles` — the same tree up to the order in which directories are listed.

## Main statements

* `FileTree.SameFiles.find_eq`, `FileTree.SameFiles.perm_namesIn` — what can be told about such
  trees.
* `FileTree.sameFiles_putAll_of_perm` — nodes put at different places in another order.
-/

namespace WidgetSkin.FileTree

variable {t u : FileTree} {place : Location} {path : String}

/-- The same tree up to the order in which directories are listed. -/
structure SameFiles (t u : FileTree) : Prop where
  workDir_eq : u.workDir = t.workDir
  node?_eq : ∀ place, u.node? place = t.node? place
  perm_entries : u.entries.Perm t.entries

/-- A path leads to the same in both trees. -/
theorem SameFiles.find_eq (h : t.SameFiles u) (path : String) : u.find path = t.find path := by
  have henter : u.enter = t.enter := by
    funext place step
    rw [enter, enter, h.node?_eq]
  have hfollow : u.follow path = t.follow path := by
    rw [follow, follow, henter, start, start, h.workDir_eq]
  rw [find, find, hfollow]
  simp only [h.node?_eq]

/-- The entries of one place, in listing order. -/
def entriesAt (place : Location) (entries : List (Location × Node)) : List (Location × Node) :=
  entries.filter (·.1 = place)

theorem entriesAt_cons (place : Location) (entry : Location × Node)
    (entries : List (Location × Node)) :
    entriesAt place (entry :: entries) =
      if entry.1 = place then entry :: entriesAt place entries else entriesAt place entries := by
  simp [entriesAt, List.filter_cons]

/-- Writing an entry concerns no place but its own. -/
theorem entriesAt_setEntry (place other : Location) (node : Node)
    (entries : List (Location × Node)) :
    entriesAt other (setEntry place node entries) =
      if place = other then (place, node) :: (entriesAt place entries).tail
      else entriesAt other entries := by
  induction entries with
  | nil => by_cases h : place = other <;> simp [setEntry, entriesAt, h]
  | cons entry entries ih =>
    by_cases hentry : entry.1 = place
    · by_cases hother : place = other <;> simp [setEntry, entriesAt_cons, hentry, hother]
    · rw [setEntry, if_neg hentry, entriesAt_cons, ih, entriesAt_cons, entriesAt_cons,
        if_neg hentry]
      by_cases hother : place = other
      · simp [hother ▸ hentry, hother]
      · simp [hother]

theorem lookup_eq_head?_entriesAt (place : Location) (entries : List (Location × Node)) :
    entries.lookup place = ((entriesAt place entries).head?).map Prod.snd := by
  induction entries with
  | nil => rfl
  | cons entry entries ih =>
    rw [entriesAt_cons, List.lookup_cons]
    by_cases h : entry.1 = place
    · simp [h]
    · rw [beq_false_of_ne (Ne.symm h), if_neg h, ih]

/-- Trees are the same if every place has the same entries. -/
theorem sameFiles_of_entriesAt (hworkDir : u.workDir = t.workDir)
    (h : ∀ place, entriesAt place u.entries = entriesAt place t.entries) : t.SameFiles u where
  workDir_eq := hworkDir
  node?_eq place := by rw [node?, node?, lookup_eq_head?_entriesAt, lookup_eq_head?_entriesAt, h]
  perm_entries := by
    refine List.perm_iff_count.2 fun entry => ?_
    rw [← List.count_filter (p := fun other => decide (other.1 = entry.1)) (by simp),
      ← List.count_filter (l := t.entries) (p := fun other => decide (other.1 = entry.1)) (by simp)]
    exact congrArg _ (h entry.1)

/-! ## Nodes put in another order -/

/-- Of nodes that are put at different places, one concerns the entries of a place at most. -/
theorem entriesAt_putAll (t : FileTree) {entries : List (Location × Node)}
    (hnodup : (entries.map Prod.fst).Nodup) (place : Location) :
    entriesAt place (t.putAll entries).entries =
      (entries.find? (·.1 = place)).elim (entriesAt place t.entries)
        (· :: (entriesAt place t.entries).tail) := by
  induction entries generalizing t with
  | nil => rfl
  | cons entry entries ih =>
    obtain ⟨first, node⟩ := entry
    rw [List.map_cons, List.nodup_cons] at hnodup
    rw [putAll_cons, ih _ hnodup.2, put, entriesAt_setEntry, List.find?_cons]
    by_cases h : first = place
    · subst h
      have hnone : entries.find? (·.1 = first) = none := by
        refine List.find?_eq_none.2 fun other hother heq => hnodup.1 ?_
        exact List.mem_map.2 ⟨other, hother, of_decide_eq_true heq⟩
      simp [hnone]
    · simp [h]

/-- Nodes that are put at different places can be put in any order. -/
theorem sameFiles_putAll_of_perm (t : FileTree) {before after : List (Location × Node)}
    (hperm : after.Perm before) (hnodup : (before.map Prod.fst).Nodup) :
    (t.putAll before).SameFiles (t.putAll after) := by
  have hnodup' : (after.map Prod.fst).Nodup := (hperm.map Prod.fst).nodup_iff.2 hnodup
  refine sameFiles_of_entriesAt (by simp) fun place => ?_
  have hfind : after.find? (·.1 = place) = before.find? (·.1 = place) := by
    refine Option.ext fun entry => ?_
    rw [find?_key_eq_some_iff hnodup', find?_key_eq_some_iff hnodup, hperm.mem_iff]
  rw [entriesAt_putAll t hnodup', entriesAt_putAll t hnodup, hfind]

end WidgetSkin.FileTree
