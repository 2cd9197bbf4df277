import Mathlib.Data.List.Induction
import WidgetSkin.Proofs.FileTree.Writes

/-!
# Closed trees

In a tree of files every entry stands in a directory. Making directories, writing and copying
keep a tree so, and where nothing stands, nothing stands further below.

## Main definitions

* `FileTree.Closed` — every entry stands in a directory.
* `FileTree.isOccupied` — whether something stands where a path leads.

## Main statements

* `FileTree.Closed.node?_eq_none` — nothing lies below nothing.
* `FileTree.WritesOnly.closed` — all operations keep a tree closed.
-/

namespace WidgetSkin.FileTree

variable {t u : FileTree} {place : Location} {path : String} {device : Device}

/-- Every entry of a tree stands in a directory. -/
def Closed (t : FileTree) : Prop :=
  ∀ entry ∈ t.entries, t.hasDirectory entry.1.dropLast = true

instance (t : FileTree) : Decidable t.Closed :=
  inferInstanceAs (Decidable (∀ entry ∈ t.entries, _))

/-- Whether a path leads to a place where something stands. -/
def isOccupied (t : FileTree) (path : String) : Bool :=
  match t.follow path with
  | .ok target => (t.node? target.place).isSome
  | .error _ => false

theorem isOccupied_iff : t.isOccupied path = true ↔
    ∃ target, t.follow path = .ok target ∧ t.node? target.place ≠ none := by
  unfold isOccupied
  cases t.follow path <;> simp [Option.isSome_iff_ne_none]

/-! ## Where an operation succeeds -/

theorem node?_resolve_of_makeDirectory (h : t.makeDirectory path device = .ok u) :
    t.node? (Path.resolve t.workDir path) = none := by
  obtain ⟨target, hfollow, -, hnone, -⟩ := makeDirectory_eq_ok_iff.1 h
  rw [← place_of_follow hfollow, hnone]

/-- The place under a path that ends in a name lies in a directory. -/
theorem hasDirectory_dropLast_of_follow {target : Target} (h : t.follow path = .ok target)
    (hending : target.ending ≠ .directory) :
    target.place ≠ [] ∧ t.hasDirectory target.place.dropLast = true := by
  obtain ⟨-, hlast, hends⟩ := follow_eq_ok_iff.1 h
  obtain ⟨step, hstep, hname⟩ : ∃ step, (Path.steps path).getLast? = some step ∧
      step ≠ "." ∧ step ≠ ".." := by
    rw [← hends, Path.ending] at hending
    split at hending <;> simp_all
  obtain ⟨before, hsteps⟩ := List.getLast?_eq_some_iff.1 hstep
  rw [hsteps, List.foldlM_append] at hlast
  obtain ⟨around, -, hlast⟩ := bind_eq_ok_iff.1 hlast
  simp only [List.foldlM_cons, List.foldlM_nil, bind_pure, enter] at hlast
  split at hlast
  · cases hlast
  · cases hlast
  · next hdirectory =>
    rw [if_neg hname.1, if_neg hname.2] at hlast
    split at hlast
    · cases hlast
    · rw [← Except.ok.inj hlast]
      simpa [hasDirectory_iff] using hdirectory

/-! ## Closed trees -/

theorem eq_or_mem_of_mem_setEntry {node : Node} {entries : List (Location × Node)}
    {entry : Location × Node} (h : entry ∈ setEntry place node entries) :
    entry = (place, node) ∨ entry ∈ entries := by
  induction entries with
  | nil => simpa [setEntry] using h
  | cons first entries ih =>
    rw [setEntry] at h
    split at h <;> grind

namespace Closed

theorem hasDirectory_dropLast (h : t.Closed) (hplace : t.node? place ≠ none) :
    t.hasDirectory place.dropLast = true := by
  unfold node? at hplace
  split at hplace
  · next hroot => simp [hroot, hasDirectory, node?]
  · obtain ⟨node, hnode⟩ := Option.ne_none_iff_exists'.1 hplace
    obtain ⟨before, after, hentries, -⟩ := List.lookup_eq_some_iff.1 hnode
    exact h (place, node) (by simp [hentries])

/-- Nothing lies below nothing. -/
theorem node?_eq_none (h : t.Closed) {top : Location} (htop : t.node? top = none)
    (hbelow : top <+: place) : t.node? place = none := by
  obtain ⟨names, rfl⟩ := hbelow
  induction names using List.reverseRecOn with
  | nil => simpa using htop
  | append_singleton names name ih =>
    refine Classical.byContradiction fun hplace => ?_
    have hparent := hasDirectory_iff.1 (h.hasDirectory_dropLast hplace)
    rw [← List.append_assoc, List.dropLast_concat, ih] at hparent
    cases hparent

/-- A tree stays closed if no directory is written over. -/
theorem put (h : t.Closed) {node : Node} (hplace : place ≠ [])
    (hparent : t.hasDirectory place.dropLast = true)
    (hnode : node = .directory ∨ t.hasDirectory place = false) : (t.put place node).Closed := by
  have hkept : ∀ other, t.hasDirectory other = true →
      (t.put place node).hasDirectory other = true := by
    intro other hother
    rw [hasDirectory_iff, node?_put t place other node hplace]
    split
    · next heq =>
      subst heq
      exact congrArg some (hnode.resolve_right (by simp [hother]))
    · exact hasDirectory_iff.1 hother
  intro entry hentry
  rcases eq_or_mem_of_mem_setEntry hentry with rfl | hold
  · exact hkept _ hparent
  · exact hkept _ (h entry hold)

theorem put_writable (h : t.Closed) (hplace : t.writable path = .ok place)
    (content : ByteArray) : (t.put place (.file content)).Closed := by
  obtain ⟨target, hfollow, hending, hfile, rfl⟩ := writable_eq_ok_iff.1 hplace
  obtain ⟨hroot, hparent⟩ := hasDirectory_dropLast_of_follow hfollow (by simp [hending])
  exact h.put hroot hparent (.inr hfile)

end Closed

/-- An operation keeps a tree closed. -/
theorem Writes.closed (h : t.Writes path u device) (ht : t.Closed) : u.Closed := by
  rcases h.cases with rfl | hmade | ⟨place, content, hplace, rfl⟩
  · exact ht
  · obtain ⟨target, hfollow, hending, -, -, rfl⟩ := makeDirectory_eq_ok_iff.1 hmade
    obtain ⟨hroot, hparent⟩ := hasDirectory_dropLast_of_follow hfollow hending
    exact ht.put hroot hparent (.inl rfl)
  · exact ht.put_writable hplace content

/-- Whatever a piece of work writes, the tree stays closed. -/
theorem WritesOnly.closed {Admitted : String → Prop} (h : t.WritesOnly Admitted u device)
    (ht : t.Closed) : u.Closed := by
  induction h with
  | refl => exact ht
  | tail _ step ih =>
    obtain ⟨path, -, hwrites⟩ := step
    exact hwrites.closed ih

end WidgetSkin.FileTree
