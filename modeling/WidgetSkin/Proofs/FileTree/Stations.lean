import WidgetSkin.Proofs.FileTree.Additions

/-!
# Walks among new files

When files come to stand where nothing or a file stood, directories stay where they are. A walk
that leads somewhere leads there still, and a walk that fails still fails. It can fail for another
reason, if it goes through a place where nothing stood and a file stands now.

## Main definitions

* `Path.stations` — the places that a path leads through.
* `FileTree.FilledAt` — files have come to stand at some of several places.
* `FileTree.isDirectory` — whether a path leads to a directory.

## Main statements

* `FileTree.FilledAt.find_eq_file_iff` — a path that leads to a file still does.
* `FileTree.FilledAt.follow_eq` — a walk around the places where nothing stood.
* `FileTree.KeepsWalks.follow_join_eq` — a walk to a name in a directory.
-/

namespace WidgetSkin

/-- The places that a path leads through, from where it starts to where it ends. -/
def Path.stations (directory : Location) (path : String) : List Location :=
  (segments path.toList).scanl nextSegment (if isAbsolute path then [] else directory)

namespace FileTree

variable {t u : FileTree} {place : Location} {places : List Location} {path base : String}

/-- Whether a path leads to a directory. -/
def isDirectory (t : FileTree) (path : String) : Bool :=
  match t.find path with
  | .ok (_, .directory) => true
  | _ => false

theorem exists_follow_of_isDirectory (h : t.isDirectory path = true) :
    ∃ target, t.follow path = .ok target ∧ t.hasDirectory target.place = true := by
  unfold isDirectory at h
  split at h
  · next place hfind =>
    obtain ⟨target, hfollow, hnode⟩ := bind_eq_ok_iff.1 hfind
    refine ⟨target, hfollow, hasDirectory_iff.2 ?_⟩
    split at hnode
    · cases hnode
    · assumption
    · split at hnode <;> cases hnode
  · cases h

/-- Files have come to stand at some of the places, over nothing or over other files. -/
structure FilledAt (places : List Location) (t u : FileTree) : Prop where
  sameWalks : t.SameWalks u
  node?_eq : ∀ place, place ∉ places → u.node? place = t.node? place
  node?_ne_none : ∀ place, t.node? place ≠ none → u.node? place ≠ none

namespace FilledAt

theorem refl (places : List Location) (t : FileTree) : FilledAt places t t :=
  ⟨.refl t, fun _ _ => rfl, fun _ => id⟩

/-- One more file at one of the places. -/
theorem put (h : FilledAt places t u) (hplace : place ∈ places)
    (hdirectory : u.hasDirectory place = false) (content : ByteArray) :
    FilledAt places t (u.put place (.file content)) where
  sameWalks := h.sameWalks.trans (sameWalks_put hdirectory content)
  node?_eq other hother := by
    rw [node?_put_of_ne _ (ne_of_mem_of_not_mem hplace hother).symm, h.node?_eq other hother]
  node?_ne_none other hother := by
    have hroot : place ≠ [] := by
      rintro rfl
      simp [hasDirectory, node?] at hdirectory
    rw [node?_put _ _ _ _ hroot]
    split
    · exact Option.some_ne_none _
    · exact h.node?_ne_none other hother

/-! ## Walks -/

/-- A step from a place goes on as before, unless nothing stood there. -/
theorem enter_eq (h : FilledAt places t u) (hplace : t.node? place = none → place ∉ places)
    (step : String) : u.enter place step = t.enter place step := by
  have hdirectory := h.sameWalks.hasDirectory_eq place
  cases ht : t.node? place with
  | none => rw [enter, enter, h.node?_eq place (hplace ht)]
  | some node =>
    obtain ⟨node', hu⟩ := Option.ne_none_iff_exists'.1 (h.node?_ne_none place (by simp [ht]))
    cases node <;> cases node' <;> simp_all [enter, hasDirectory]

theorem foldlM_enter_eq (h : FilledAt places t u) (segments : List (List Char))
    (hstations : ∀ station ∈ segments.scanl Path.nextSegment place,
      t.node? station = none → station ∉ places) :
    ((segments.filter (· ≠ [])).map .ofList).foldlM u.enter place =
      ((segments.filter (· ≠ [])).map .ofList).foldlM t.enter place := by
  induction segments generalizing place with
  | nil => rfl
  | cons segment segments ih =>
    rw [List.scanl_cons, List.forall_mem_cons] at hstations
    by_cases hempty : segment = []
    · have hplace : Path.nextSegment place segment = place := by
        simp [hempty, Path.nextSegment, Path.Component.ofInner?]
      rw [hplace] at hstations
      simpa [hempty] using ih hstations.2
    · simp only [List.filter_cons, hempty, ne_eq, not_false_eq_true, decide_true, if_true,
        List.map_cons, List.foldlM_cons, h.enter_eq hstations.1]
      cases hnext : t.enter place (.ofList segment) with
      | error reason => rfl
      | ok next =>
        obtain rfl := enter_eq_ok hempty hnext
        exact ih hstations.2

/-- A walk is as before, if it does not go through a place where nothing stood. -/
theorem follow_eq (h : FilledAt places t u)
    (hstations : ∀ station ∈ Path.stations t.workDir path,
      t.node? station = none → station ∉ places) : u.follow path = t.follow path := by
  rw [follow, follow, Path.steps, start, start, h.sameWalks.workDir_eq,
    h.foldlM_enter_eq _ hstations]

/-- A path that leads elsewhere leads to what it led to before, if its walk is as before. -/
theorem find_eq (h : FilledAt places t u) (hplace : Path.resolve t.workDir path ∉ places)
    (hfollow : u.follow path = t.follow path) : u.find path = t.find path := by
  rw [find, find, hfollow]
  cases htarget : t.follow path with
  | error reason => rfl
  | ok target =>
    have hnode : u.node? target.place = t.node? target.place :=
      h.node?_eq _ (by rwa [place_of_follow htarget])
    simp only [ok_bind, hnode]

/-- A path that leads elsewhere leads to a file if it led to that file before. -/
theorem find_eq_file_iff (h : FilledAt places t u)
    (hplace : Path.resolve t.workDir path ∉ places) {content : ByteArray} :
    u.find path = .ok (place, .file content) ↔ t.find path = .ok (place, .file content) := by
  have hnode := h.node?_eq _ hplace
  rw [FileTree.find_eq_file_iff, FileTree.find_eq_file_iff]
  constructor
  · rintro ⟨target, hfollow, hending, rfl, hcontent⟩
    have hfollow' := h.sameWalks.keepsWalks_symm.follow hfollow
    refine ⟨target, hfollow', hending, rfl, ?_⟩
    rwa [place_of_follow hfollow', ← hnode, ← place_of_follow hfollow']
  · rintro ⟨target, hfollow, hending, rfl, hcontent⟩
    refine ⟨target, h.sameWalks.keepsWalks.follow hfollow, hending, rfl, ?_⟩
    rwa [place_of_follow hfollow, hnode, ← place_of_follow hfollow]

end FilledAt

/-- The walk to a name in a directory is as before, if no directory has gone. -/
theorem KeepsWalks.follow_join_eq (h : t.KeepsWalks u) (hbase : t.isDirectory base = true)
    (hrelative : Path.isAbsolute path = false) (hsteps : Path.steps path = [path]) :
    u.follow (Path.join base path) = t.follow (Path.join base path) := by
  obtain ⟨around, hfollow, hdirectory⟩ := exists_follow_of_isDirectory hbase
  have hbefore := (follow_eq_ok_iff.1 hfollow).2.1
  have hstart : t.start (Path.join base path) = t.start base := by
    simp [start, Path.isAbsolute_join hrelative]
  have henter : u.enter around.place path = t.enter around.place path := by
    rw [enter, enter, hasDirectory_iff.1 hdirectory,
      hasDirectory_iff.1 (h.hasDirectory _ hdirectory)]
  have hwalk : (Path.steps (Path.join base path)).foldlM u.enter (u.start (Path.join base path)) =
      (Path.steps (Path.join base path)).foldlM t.enter (t.start (Path.join base path)) := by
    have hstart' : u.start (Path.join base path) = t.start base := by
      rw [← hstart, start, start, h.workDir_eq]
    rw [hstart, hstart', Path.steps_join hrelative, hsteps, List.foldlM_append,
      List.foldlM_append, hbefore, h.foldlM_enter hbefore]
    simp [henter]
  rw [FileTree.follow, FileTree.follow, hwalk]

/-- A file can be written under a path whose walk is as before, if it could be. -/
theorem SameWalks.writable_eq (h : t.SameWalks u) (hfollow : u.follow path = t.follow path) :
    u.writable path = t.writable path := by
  simp only [writable, hfollow, h.hasDirectory_eq]

/-! ## Copies -/

/-- A copy is to make the same file, if it finds the same and the same can be written. -/
theorem copyOf_eq {source target : String} (hfind : u.find source = t.find source)
    (hwritable : u.writable target = t.writable target) :
    u.copyOf source target = t.copyOf source target := by
  rw [copyOf, copyOf, hfind, hwritable]

end FileTree

end WidgetSkin
