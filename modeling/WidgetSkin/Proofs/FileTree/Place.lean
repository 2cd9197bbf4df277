import WidgetSkin.FileTree.Operations
import WidgetSkin.Proofs.Success

/-!
# The place that a path names

A path can be read without looking at the files: names go down, double dots go up, and an
absolute path starts at the root. Where a path leads in a tree, it leads to the place that it
names in this way.

## Main definitions

* `Path.resolve` — the place that a path names from a directory.
* `Path.Descends` — a path that names a place at or below every directory it starts from.

## Main statements

* `Path.resolve_join` — a joined path is one path resolved after the other.
* `Path.descends_of_isSingleName` — a plain name descends.
* `FileTree.place_of_follow` — a path leads to the place that it names.
-/

namespace WidgetSkin

namespace Path

/-! ## Resolution -/

/-- Go on by one part of a path. -/
def Component.next (place : Location) : Component → Location
  | root => []
  | here => place
  | up => place.dropLast
  | name s => place ++ [s]

/-- The place that a path names from a directory. -/
def resolve (directory : Location) (path : String) : Location :=
  (components path).foldl Component.next directory

/-- Go on by what stands between two slashes. -/
def nextSegment (place : Location) (segment : List Char) : Location :=
  (Component.ofInner? segment).elim place (Component.next place)

theorem resolve_of_components_eq_name {path name : String} (directory : Location)
    (h : components path = [.name name]) : resolve directory path = directory ++ [name] := by
  simp [resolve, h, Component.next]

/-- Spellings of one place are resolved alike. -/
theorem resolve_congr {path other : String} (h : SamePlace path other) (directory : Location) :
    resolve directory path = resolve directory other := by
  rw [resolve, resolve, show components path = components other from h]

theorem segments_ne_nil (cs : List Char) : segments cs ≠ [] :=
  List.splitOn_ne_nil '/' cs

/-- A slash parts the segments. -/
theorem segments_append_slash (as bs : List Char) :
    segments (as ++ '/' :: bs) = segments as ++ segments bs :=
  List.splitOn_append_cons_self as bs

theorem isAbsolute_empty : isAbsolute "" = false := by simp [isAbsolute]

/-- An absolute path begins with a slash. -/
theorem isAbsolute_iff {path : String} :
    isAbsolute path = true ↔ ∃ cs, path.toList = '/' :: cs := by
  cases h : path.toList <;> simp [isAbsolute, h]

/-- The dot in front of a path goes nowhere, as the dots further inside. -/
theorem foldl_ofFirst? (place : Location) (segment : List Char) :
    (Component.ofFirst? segment).toList.foldl Component.next place = nextSegment place segment := by
  by_cases hdot : segment = ['.']
  · simp [Component.ofFirst?, nextSegment, Component.ofInner?, Component.next, hdot]
  · cases h : Component.ofInner? segment <;> simp [Component.ofFirst?, nextSegment, hdot, h]

/-- A path is resolved segment by segment, an absolute one from the root on. -/
theorem resolve_eq_foldl (directory : Location) (path : String) :
    resolve directory path =
      (segments path.toList).foldl nextSegment (if isAbsolute path then [] else directory) := by
  have inner : ∀ (rest : List (List Char)) (place : Location),
      (rest.filterMap Component.ofInner?).foldl Component.next place =
        rest.foldl nextSegment place := by
    intro rest place
    rw [List.foldl_filterMap]
    congr 1
    funext place segment
    cases h : Component.ofInner? segment <;> simp [nextSegment, h]
  by_cases habsolute : isAbsolute path = true
  · obtain ⟨cs, hcs⟩ := isAbsolute_iff.1 habsolute
    have hsegments : segments path.toList = [] :: segments cs := by
      rw [hcs, ← List.nil_append ('/' :: cs), segments_append_slash]
      simp [segments]
    simp [resolve, components, hsegments, habsolute, inner, Component.next, nextSegment,
      Component.ofInner?]
  · cases hsegments : segments path.toList with
    | nil => exact absurd hsegments (segments_ne_nil _)
    | cons first rest =>
      simp only [resolve, components, hsegments, habsolute, Bool.false_eq_true, if_false,
        List.foldl_append, foldl_ofFirst?, inner, List.foldl_cons]

/-- What an absolute path names does not depend on where one is. -/
theorem resolve_of_isAbsolute {path : String} (h : isAbsolute path = true)
    (directory other : Location) : resolve directory path = resolve other path := by
  simp [resolve_eq_foldl, h]

/-! ## Joined paths -/

/-- A joined path has the segments of both, for all that resolution sees. -/
theorem foldl_segments_join {base path : String} (h : isAbsolute path = false)
    (place : Location) :
    (segments (join base path).toList).foldl nextSegment place =
      (segments path.toList).foldl nextSegment
        ((segments base.toList).foldl nextSegment place) := by
  by_cases hempty : base = ""
  · simp [join, h, hempty, segments, nextSegment, Component.ofInner?]
  by_cases hslash : base.toList.getLast? = some '/'
  · obtain ⟨as, has⟩ := List.getLast?_eq_some_iff.1 hslash
    have hjoin : (join base path).toList = as ++ '/' :: path.toList := by
      simp [join, h, has]
    have hbase : segments base.toList = segments as ++ [[]] := by
      rw [has, segments_append_slash]
      simp [segments]
    simp [hjoin, hbase, segments_append_slash, nextSegment, Component.ofInner?]
  · have hjoin : (join base path).toList = base.toList ++ '/' :: path.toList := by
      simp [join, h, hempty, hslash]
    rw [hjoin, segments_append_slash, List.foldl_append]

/-- A path continued by a relative one begins as it did. -/
theorem exists_toList_join {base path : String} (h : isAbsolute path = false) :
    ∃ rest, (join base path).toList = base.toList ++ rest := by
  simp only [join, h, Bool.false_eq_true, if_false]
  split
  · exact ⟨path.toList, by simp⟩
  · exact ⟨'/' :: path.toList, by simp⟩

/-- A path continued by a relative one starts where it started. -/
theorem isAbsolute_join {base path : String} (h : isAbsolute path = false) :
    isAbsolute (join base path) = isAbsolute base := by
  by_cases hempty : base = ""
  · simp [join, h, hempty, isAbsolute_empty]
  · obtain ⟨rest, hjoin⟩ : ∃ rest, (join base path).toList = base.toList ++ rest :=
      exists_toList_join h
    obtain ⟨c, cs, hbase⟩ := List.exists_cons_of_ne_nil (mt String.toList_eq_nil_iff.1 hempty)
    simp [isAbsolute, hjoin, hbase]

/-- A joined path is one path resolved after the other. -/
@[simp] theorem resolve_join (directory : Location) (base path : String) :
    resolve directory (join base path) = resolve (resolve directory base) path := by
  by_cases h : isAbsolute path = true
  · simp only [join, h, if_true]
    exact resolve_of_isAbsolute h _ _
  · have hrelative : isAbsolute path = false := by simpa using h
    rw [resolve_eq_foldl, isAbsolute_join hrelative, foldl_segments_join hrelative,
      ← resolve_eq_foldl, resolve_eq_foldl _ path]
    simp [hrelative]

/-! ## Paths that do not lead out -/

/-- The path names a place at or below every directory it starts from. -/
def Descends (path : String) : Prop :=
  ∀ directory : Location, directory <+: resolve directory path

theorem descends_of_components_eq_name {path name : String} (h : components path = [.name name]) :
    Descends path := by
  intro directory
  rw [resolve_of_components_eq_name directory h]
  exact List.prefix_append _ _

/-- A plain name descends. -/
theorem descends_of_isSingleName {path : String} (h : isSingleName path = true) :
    Descends path := by
  obtain ⟨name, hname⟩ := isSingleName_iff.1 h
  exact descends_of_components_eq_name hname

end Path

/-! ## Where a path leads -/

namespace FileTree

/-- A step leads where its text says. -/
theorem enter_eq_ok {t : FileTree} {place next : Location} {segment : List Char}
    (hsegment : segment ≠ []) (h : t.enter place (.ofList segment) = .ok next) :
    next = Path.nextSegment place segment := by
  simp only [enter] at h
  have hdot : String.ofList segment = "." ↔ segment = ['.'] := by
    rw [← String.toList_inj]; simp
  have hup : String.ofList segment = ".." ↔ segment = ['.', '.'] := by
    rw [← String.toList_inj]; simp
  split at h
  · cases h
  · cases h
  · grind [Path.nextSegment, Path.Component.ofInner?, Path.Component.next]

/-- Several steps lead where their texts say. -/
theorem foldlM_enter_eq_ok {t : FileTree} (segments : List (List Char)) {place last : Location}
    (h : ((segments.filter (· ≠ [])).map .ofList).foldlM t.enter place = .ok last) :
    last = segments.foldl Path.nextSegment place := by
  induction segments generalizing place with
  | nil => exact (pure_eq_ok_iff.1 h).symm
  | cons segment rest ih =>
    by_cases hempty : segment = []
    · simpa [hempty, Path.nextSegment, Path.Component.ofInner?] using ih (by simpa [hempty] using h)
    · simp only [List.filter_cons, hempty, ne_eq, not_false_eq_true, decide_true, if_true,
        List.map_cons, List.foldlM_cons, bind_eq_ok_iff] at h
      obtain ⟨next, hnext, hrest⟩ := h
      rw [List.foldl_cons, ← enter_eq_ok hempty hnext]
      exact ih hrest

/-- What it takes for a path to lead somewhere. -/
theorem follow_eq_ok_iff {t : FileTree} {path : String} {target : Target} :
    t.follow path = .ok target ↔
      ('\x00' ∉ path.toList ∧ path ≠ "" ∧ path.utf8ByteSize ≤ Path.longestPath) ∧
      (Path.steps path).foldlM t.enter (t.start path) = .ok target.place ∧
      Path.ending path = target.ending := by
  obtain ⟨place, ending⟩ := target
  by_cases hnul : '\x00' ∈ path.toList
  · simp [follow, hnul]
  by_cases hempty : path = ""
  · simp [follow, hempty]
  by_cases hlength : Path.longestPath < path.utf8ByteSize
  · simp [follow, hnul, hempty, hlength, Nat.not_le_of_lt hlength]
  · simp [follow, hnul, hempty, hlength, Nat.le_of_not_lt hlength, map_eq_ok_iff,
      ← and_assoc]

/-- A path leads to the place that it names. -/
theorem place_of_follow {t : FileTree} {path : String} {target : Target}
    (h : t.follow path = .ok target) : target.place = Path.resolve t.workDir path := by
  rw [Path.resolve_eq_foldl]
  exact foldlM_enter_eq_ok _ (follow_eq_ok_iff.1 h).2.1

end FileTree

end WidgetSkin
