import WidgetSkin.Proofs.FileTree.Ending

/-!
# Additions to a tree

A tree with several nodes put one after the other. Where each of them has a place of its own they
all stand there, and everything else is as before. Files that are added where no directory
stands leave every walk as it was.

## Main definitions

* `FileTree.putAll` — the tree with several nodes put one after the other.
* `FileTree.KeepsWalks`, `FileTree.SameWalks` — no directory has gone, and none has come.

## Main statements

* `FileTree.node?_putAll_of_mem`, `FileTree.node?_putAll_of_notMem` — what stands at a place.
* `FileTree.sameWalks_putAll` — files leave walks as they were.
* `FileTree.KeepsWalks.isFile`, `FileTree.SameWalks.isFile_eq` — a file at the end of a walk.
-/

namespace WidgetSkin.FileTree

variable {t u : FileTree} {place : Location} {node : Node} {path : String}

/-- The tree with several nodes put one after the other. -/
def putAll (t : FileTree) (entries : List (Location × Node)) : FileTree :=
  entries.foldl (fun u entry => u.put entry.1 entry.2) t

@[simp] theorem putAll_nil (t : FileTree) : t.putAll [] = t := rfl

@[simp] theorem putAll_cons (t : FileTree) (entry : Location × Node)
    (entries : List (Location × Node)) :
    t.putAll (entry :: entries) = (t.put entry.1 entry.2).putAll entries := rfl

theorem putAll_append (t : FileTree) (before after : List (Location × Node)) :
    t.putAll (before ++ after) = (t.putAll before).putAll after :=
  List.foldl_append

@[simp] theorem workDir_putAll (t : FileTree) (entries : List (Location × Node)) :
    (t.putAll entries).workDir = t.workDir := by
  induction entries generalizing t with
  | nil => rfl
  | cons entry entries ih => exact ih _

/-! ## What stands at a place -/

theorem node?_putAll_of_notMem {entries : List (Location × Node)}
    (h : place ∉ entries.map Prod.fst) : (t.putAll entries).node? place = t.node? place := by
  induction entries generalizing t with
  | nil => rfl
  | cons entry entries ih =>
    rw [List.map_cons, List.mem_cons, not_or] at h
    rw [putAll_cons, ih h.2, node?_put_of_ne entry.2 h.1]

/-- Where something was put stands the last node that was put there. -/
theorem exists_node?_putAll {entries : List (Location × Node)} (hplace : place ≠ [])
    (h : place ∈ entries.map Prod.fst) :
    ∃ node, (place, node) ∈ entries ∧ (t.putAll entries).node? place = some node := by
  induction entries generalizing t with
  | nil => cases h
  | cons entry entries ih =>
    by_cases hlater : place ∈ entries.map Prod.fst
    · obtain ⟨node, hmem, hnode⟩ := ih (t := t.put entry.1 entry.2) hlater
      exact ⟨node, List.mem_cons_of_mem _ hmem, hnode⟩
    · obtain rfl : place = entry.1 := (List.mem_cons.1 h).resolve_right hlater
      refine ⟨entry.2, List.mem_cons_self, ?_⟩
      rw [putAll_cons, node?_putAll_of_notMem hlater, node?_put _ _ _ _ hplace, if_pos rfl]

/-- A node stands where it was put if nothing else was put there. -/
theorem node?_putAll_of_mem {entries : List (Location × Node)} (hplace : place ≠ [])
    (hunique : ∀ other, (place, other) ∈ entries → other = node) (h : (place, node) ∈ entries) :
    (t.putAll entries).node? place = some node := by
  obtain ⟨other, hmem, hnode⟩ :=
    exists_node?_putAll (t := t) hplace (List.mem_map_of_mem (f := Prod.fst) h)
  rw [hnode, hunique other hmem]

/-- What is put where nothing stands leaves everything else as it was. -/
theorem node?_putAll_of_empty {entries : List (Location × Node)}
    (hempty : ∀ entry ∈ entries, t.node? entry.1 = none) (h : t.node? place ≠ none) :
    (t.putAll entries).node? place = t.node? place := by
  refine node?_putAll_of_notMem fun hmem => ?_
  obtain ⟨entry, hentry, rfl⟩ := List.mem_map.1 hmem
  exact h (hempty entry hentry)

/-! ## Directories -/

/-- Directories at several places. -/
def directoriesAt (places : List Location) : List (Location × Node) :=
  places.map fun place => (place, .directory)

@[simp] theorem map_fst_directoriesAt (places : List Location) :
    (directoriesAt places).map Prod.fst = places := by
  simp [directoriesAt, Function.comp_def]

/-- Directories that are made one after the other are put one after the other. -/
theorem foldlM_makeDirectory_eq_ok {paths : List String} {device : Device}
    (h : paths.foldlM (·.makeDirectory · device) t = .ok u) :
    u = t.putAll (directoriesAt (paths.map (Path.resolve t.workDir))) := by
  induction paths generalizing t with
  | nil => exact (pure_eq_ok_iff.1 h).symm
  | cons path paths ih =>
    rw [List.foldlM_cons] at h
    obtain ⟨v, hfirst, hrest⟩ := bind_eq_ok_iff.1 h
    obtain rfl := makeDirectory_eq_ok hfirst
    exact ih hrest

/-- Nothing stood where the first of several directories was made. -/
theorem node?_of_foldlM_makeDirectory {paths : List String} {device : Device}
    (h : (path :: paths).foldlM (·.makeDirectory · device) t = .ok u) :
    t.node? (Path.resolve t.workDir path) = none := by
  rw [List.foldlM_cons] at h
  obtain ⟨first, hfirst, -⟩ := bind_eq_ok_iff.1 h
  exact node?_resolve_of_makeDirectory hfirst

theorem node?_putAll_directoriesAt {places : List Location} (h : place ∈ places) :
    (t.putAll (directoriesAt places)).node? place = some .directory := by
  by_cases hroot : place = []
  · simp [node?, hroot]
  refine node?_putAll_of_mem hroot (fun other hother => ?_) (List.mem_map.2 ⟨place, h, rfl⟩)
  obtain ⟨_, -, hdirectory⟩ := List.mem_map.1 hother
  exact (Prod.mk.inj hdirectory).2.symm

/-- Where a file stands no directory has been put. -/
theorem node?_eq_of_putAll_directoriesAt {places : List Location} {content : ByteArray}
    (h : (t.putAll (directoriesAt places)).node? place = some (.file content)) :
    t.node? place = some (.file content) := by
  by_cases hmem : place ∈ places
  · rw [node?_putAll_directoriesAt hmem] at h
    cases h
  · rwa [node?_putAll_of_notMem (by simpa using hmem)] at h

/-! ## Walks -/

/-- No directory has gone, so that a path that led somewhere still leads there. -/
structure KeepsWalks (t u : FileTree) : Prop where
  workDir_eq : u.workDir = t.workDir
  hasDirectory : ∀ place, t.hasDirectory place = true → u.hasDirectory place = true

theorem KeepsWalks.foldlM_enter (h : t.KeepsWalks u) {steps : List String} {last : Location}
    (hsteps : steps.foldlM t.enter place = .ok last) : steps.foldlM u.enter place = .ok last := by
  induction steps generalizing place with
  | nil => exact hsteps
  | cons step steps ih =>
    rw [List.foldlM_cons] at hsteps ⊢
    obtain ⟨next, hnext, hrest⟩ := bind_eq_ok_iff.1 hsteps
    have hplace := hasDirectory_of_enter hnext
    have henter : u.enter place step = t.enter place step := by
      rw [enter, enter, hasDirectory_iff.1 hplace, hasDirectory_iff.1 (h.hasDirectory _ hplace)]
    rw [henter, hnext]
    exact ih hrest

theorem KeepsWalks.follow (h : t.KeepsWalks u) {target : Target}
    (hfollow : t.follow path = .ok target) : u.follow path = .ok target := by
  obtain ⟨htext, hsteps, hending⟩ := follow_eq_ok_iff.1 hfollow
  refine follow_eq_ok_iff.2 ⟨htext, ?_, hending⟩
  have hstart : u.start path = t.start path := by rw [start, start, h.workDir_eq]
  rw [hstart]
  exact h.foldlM_enter hsteps

/-- A path leads to a file if it ends in a name and a file stands where it leads. -/
theorem find_eq_file_iff {content : ByteArray} :
    t.find path = .ok (place, .file content) ↔ ∃ target, t.follow path = .ok target ∧
      target.ending = .name ∧ target.place = place ∧ t.node? place = some (.file content) := by
  simp only [find, bind_eq_ok_iff]
  refine exists_congr fun target => and_congr_right fun _ => ?_
  split
  · next h =>
    refine iff_of_false (by nofun) ?_
    rintro ⟨-, rfl, hnode⟩
    simp [h] at hnode
  · next h =>
    refine iff_of_false (by simp) ?_
    rintro ⟨-, rfl, hnode⟩
    simp [h] at hnode
  · next h =>
    split
    · next hending => grind [pure_eq_ok_iff]
    · next hending => exact iff_of_false (by nofun) fun hnamed => hending hnamed.1

theorem isFile_iff : t.isFile path = true ↔ ∃ target content, t.follow path = .ok target ∧
    target.ending = .name ∧ t.node? target.place = some (.file content) := by
  have hfind : t.isFile path = true ↔
      ∃ place content, t.find path = .ok (place, .file content) := by
    unfold isFile
    split
    · next place content h => simp [h]
    · next h => simpa using h
  simp only [hfind, find_eq_file_iff]
  constructor
  · rintro ⟨_, content, target, hfollow, hending, rfl, hnode⟩
    exact ⟨target, content, hfollow, hending, hnode⟩
  · rintro ⟨target, content, hfollow, hending, hnode⟩
    exact ⟨_, content, target, hfollow, hending, rfl, hnode⟩

/-- A path still leads to a file if the file has stayed. -/
theorem KeepsWalks.isFile (h : t.KeepsWalks u)
    (hnode : ∀ content, t.node? (Path.resolve t.workDir path) = some (.file content) →
      u.node? (Path.resolve t.workDir path) = some (.file content))
    (hfile : t.isFile path = true) : u.isFile path = true := by
  obtain ⟨target, content, hfollow, hending, hcontent⟩ := isFile_iff.1 hfile
  refine isFile_iff.2 ⟨target, content, h.follow hfollow, hending, ?_⟩
  rw [place_of_follow hfollow] at hcontent ⊢
  exact hnode content hcontent

theorem keepsWalks_putAll_of_empty {entries : List (Location × Node)}
    (hempty : ∀ entry ∈ entries, t.node? entry.1 = none) : t.KeepsWalks (t.putAll entries) := by
  refine ⟨workDir_putAll t entries, fun place hplace => ?_⟩
  rw [hasDirectory_iff] at hplace ⊢
  rw [node?_putAll_of_empty hempty (by simp [hplace]), hplace]

/-- A path still leads to its file when something is put where nothing stands. -/
theorem isFile_putAll_of_empty {entries : List (Location × Node)}
    (hempty : ∀ entry ∈ entries, t.node? entry.1 = none) (h : t.isFile path = true) :
    (t.putAll entries).isFile path = true := by
  refine (keepsWalks_putAll_of_empty hempty).isFile (fun content hcontent => ?_) h
  rw [node?_putAll_of_empty hempty (by simp [hcontent]), hcontent]

/-- Directories stand at the same places, so that the same paths lead somewhere. -/
structure SameWalks (t u : FileTree) : Prop where
  workDir_eq : u.workDir = t.workDir
  hasDirectory_eq : ∀ place, u.hasDirectory place = t.hasDirectory place

namespace SameWalks

theorem refl (t : FileTree) : t.SameWalks t := ⟨rfl, fun _ => rfl⟩

theorem trans {v : FileTree} (htu : t.SameWalks u) (huv : u.SameWalks v) : t.SameWalks v :=
  ⟨huv.workDir_eq.trans htu.workDir_eq,
    fun place => (huv.hasDirectory_eq place).trans (htu.hasDirectory_eq place)⟩

theorem keepsWalks (h : t.SameWalks u) : t.KeepsWalks u :=
  ⟨h.workDir_eq, fun place hplace => (h.hasDirectory_eq place).trans hplace⟩

theorem keepsWalks_symm (h : t.SameWalks u) : u.KeepsWalks t :=
  ⟨h.workDir_eq.symm, fun place hplace => (h.hasDirectory_eq place).symm.trans hplace⟩

/-- A walk to the same node ends at a file in both trees or in none. -/
theorem isFile_eq (h : t.SameWalks u)
    (hnode : u.node? (Path.resolve t.workDir path) = t.node? (Path.resolve t.workDir path)) :
    u.isFile path = t.isFile path := by
  rw [Bool.eq_iff_iff]
  refine ⟨h.keepsWalks_symm.isFile ?_, h.keepsWalks.isFile ?_⟩
  · rw [h.workDir_eq, hnode]
    exact fun _ => id
  · rw [hnode]
    exact fun _ => id

end SameWalks

/-- A file that is put where no directory stands leaves walks as they were. -/
theorem sameWalks_put (hplace : t.hasDirectory place = false) (content : ByteArray) :
    t.SameWalks (t.put place (.file content)) := by
  refine ⟨rfl, fun other => ?_⟩
  by_cases hother : other = place
  · subst hother
    have hroot : other ≠ [] := by
      rintro rfl
      simp [hasDirectory, node?] at hplace
    rw [hplace, hasDirectory, node?_put _ _ _ _ hroot, if_pos rfl]
    rfl
  · rw [hasDirectory, node?_put_of_ne _ hother, hasDirectory]

/-- Files that are put where no directory stands leave walks as they were. -/
theorem sameWalks_putAll {entries : List (Location × Node)}
    (hfiles : ∀ entry ∈ entries, ∃ content, entry.2 = .file content)
    (hplaces : ∀ entry ∈ entries, t.hasDirectory entry.1 = false) :
    t.SameWalks (t.putAll entries) := by
  induction entries generalizing t with
  | nil => exact .refl t
  | cons entry entries ih =>
    obtain ⟨place, node⟩ := entry
    rw [List.forall_mem_cons] at hfiles hplaces
    obtain ⟨⟨content, rfl⟩, hfiles⟩ := hfiles
    have hfirst := sameWalks_put hplaces.1 content
    refine hfirst.trans (ih hfiles fun entry hentry => ?_)
    rw [hfirst.hasDirectory_eq, hplaces.2 entry hentry]

end WidgetSkin.FileTree
