import WidgetSkin.Proofs.FileTree.Closed

/-!
# What a joined path ends in

A path that is continued by a plain name goes through the directory that it named before, and it
ends as the plain name does. A plain name that ends in a name is exactly that name: its other
spellings end in a slash or a dot.

## Main definitions

* `Path.IsPlainName` — a name that is a whole path.

## Main statements

* `Path.ending_join` — a joined path ends as its second part does.
* `Path.eq_of_components_eq_name` — a plain name that ends in a name.
* `Path.IsPlainName.steps_eq` — a plain name is one step.
* `FileTree.follow_of_follow_join` — the directory that a joined path goes through.
-/

namespace WidgetSkin

namespace Path

variable {base path name : String}

/-! ## Joined paths -/

/-- A joined path has the steps of both. -/
theorem steps_join (h : isAbsolute path = false) :
    steps (join base path) = steps base ++ steps path := by
  by_cases hempty : base = ""
  · simp [join, h, hempty, steps, segments]
  by_cases hslash : base.toList.getLast? = some '/'
  · obtain ⟨as, has⟩ := List.getLast?_eq_some_iff.1 hslash
    have hjoin : (join base path).toList = as ++ '/' :: path.toList := by
      simp [join, h, has]
    have hbase : segments base.toList = segments as ++ [[]] := by
      rw [has, segments_append_slash]
      simp [segments]
    simp [steps, hjoin, hbase, segments_append_slash]
  · have hjoin : (join base path).toList = base.toList ++ '/' :: path.toList := by
      simp [join, h, hempty, hslash]
    simp [steps, hjoin, segments_append_slash]

/-- A joined path ends as its second part does. -/
theorem ending_join (h : isAbsolute path = false) (hsteps : steps path ≠ []) :
    ending (join base path) = ending path := by
  obtain ⟨before, hjoin⟩ : ∃ before, (join base path).toList = before ++ path.toList := by
    simp only [join, h, Bool.false_eq_true, if_false]
    split
    · exact ⟨base.toList, by simp⟩
    · exact ⟨base.toList ++ ['/'], by simp⟩
  obtain ⟨step, hstep⟩ := Option.ne_none_iff_exists'.1 (mt List.getLast?_eq_none_iff.1 hsteps)
  obtain ⟨c, hc⟩ : ∃ c, path.toList.getLast? = some c := by
    refine Option.ne_none_iff_exists'.1 (mt List.getLast?_eq_none_iff.1 fun hnil => hsteps ?_)
    simp [steps, hnil, segments]
  rw [ending, ending, steps_join h, hjoin, List.getLast?_append, List.getLast?_append, hstep, hc]
  rfl

theorem join_ne_empty (h : path ≠ "") : join base path ≠ "" := by
  unfold join
  split
  · exact h
  · split <;> simp [h]

/-! ## Plain names -/

theorem ne_empty_of_components_eq_name (h : components path = [.name name]) : path ≠ "" := by
  rintro rfl
  simp [components, segments, isAbsolute_empty, Component.ofFirst?, Component.ofInner?] at h

theorem isAbsolute_of_components_eq_name (h : components path = [.name name]) :
    isAbsolute path = false := by
  cases hsegments : segments path.toList with
  | nil => exact absurd hsegments (segments_ne_nil _)
  | cons first rest =>
    cases habsolute : isAbsolute path with
    | false => rfl
    | true => simp [components, hsegments, habsolute] at h

theorem steps_ne_nil_of_components_eq_name (h : components path = [.name name]) :
    steps path ≠ [] := by
  intro hsteps
  have hempty : ∀ segment ∈ segments path.toList, segment = [] := by
    simpa [steps, List.filter_eq_nil_iff] using hsteps
  obtain ⟨first, rest, hsegments⟩ := List.exists_cons_of_ne_nil (segments_ne_nil path.toList)
  rw [hsegments, List.forall_mem_cons] at hempty
  have hrest : rest.filterMap Component.ofInner? = [] := by
    refine List.filterMap_eq_nil_iff.2 fun segment hsegment => ?_
    simp [hempty.2 segment hsegment, Component.ofInner?]
  simp [components, hsegments, hempty.1, hrest, Component.ofFirst?, Component.ofInner?,
    isAbsolute_of_components_eq_name h] at h

/-- What stands in front of the first slash of a relative path is not empty. -/
theorem first_segment_ne_nil {first : List Char} {rest : List (List Char)} {cs : List Char}
    (hsegments : segments cs = first :: rest) (hhead : cs.head? ≠ some '/') (hcs : cs ≠ []) :
    first ≠ [] := by
  obtain ⟨c, cs, rfl⟩ := List.exists_cons_of_ne_nil hcs
  have hc : c ≠ '/' := by simpa using hhead
  rw [segments, List.splitOn_cons_eq_if_modifyHead, if_neg (by simpa using hc)] at hsegments
  cases h : List.splitOn '/' cs <;> simp [h] at hsegments
  simp [← hsegments.1]

/-! ### The last segment -/

/-- A segment that names nothing is empty or a dot. -/
theorem ofInner?_eq_none_iff {segment : List Char} :
    Component.ofInner? segment = none ↔ segment = [] ∨ segment = ['.'] := by
  unfold Component.ofInner?
  split_ifs <;> simp_all

/-- In front a dot names something as well. -/
theorem exists_ofFirst? {segment : List Char} (h : segment ≠ []) :
    ∃ part, Component.ofFirst? segment = some part := by
  unfold Component.ofFirst?
  split_ifs with hdot
  · exact ⟨_, rfl⟩
  · exact Option.ne_none_iff_exists'.1 (by simp [ofInner?_eq_none_iff, h, hdot])

/-- A path with a slash is cut at the last one. -/
theorem exists_segments_append (hslash : '/' ∈ path.toList) :
    ∃ before last, path.toList = before ++ '/' :: last ∧
      segments path.toList = segments before ++ [last] := by
  obtain ⟨last, before, hreverse, hlast⟩ :=
    List.eq_append_cons_of_mem (List.mem_reverse.2 hslash)
  have hpath : path.toList = before.reverse ++ '/' :: last.reverse := by
    simpa using congrArg List.reverse hreverse
  have hsingle : segments last.reverse = [last.reverse] :=
    List.splitOn_eq_singleton (by simpa using hlast)
  exact ⟨before.reverse, last.reverse, hpath, by rw [hpath, segments_append_slash, hsingle]⟩

/-- Behind the last slash of a plain name nothing is named. -/
theorem ofInner?_last_eq_none {before last : List Char}
    (h : components path = [.name name]) (hpath : path.toList = before ++ '/' :: last)
    (hsegments : segments path.toList = segments before ++ [last]) :
    Component.ofInner? last = none := by
  have hrelative := isAbsolute_of_components_eq_name h
  have hhead : before ≠ [] ∧ before.head? ≠ some '/' := by
    cases before with
    | nil => simp [isAbsolute, hpath] at hrelative
    | cons c cs => simpa [isAbsolute, hpath] using hrelative
  obtain ⟨first, rest, hbefore⟩ := List.exists_cons_of_ne_nil (segments_ne_nil before)
  obtain ⟨part, hpart⟩ := exists_ofFirst? (first_segment_ne_nil hbefore hhead.2 hhead.1)
  -- the part in front of the first slash is the name
  rw [components, hsegments, hbefore] at h
  cases hinner : Component.ofInner? last with
  | none => rfl
  | some inner => simp [hrelative, hpart, List.filterMap_append, hinner] at h

/-- A plain name that ends in a name is that name: a slash in it would have nothing but dots
behind. -/
theorem eq_of_components_eq_name (h : components path = [.name name])
    (hending : ending path = .name) : path = name := by
  by_cases hslash : '/' ∈ path.toList
  · exfalso
    obtain ⟨before, last, hpath, hsegments⟩ := exists_segments_append hslash
    rcases ofInner?_eq_none_iff.1 (ofInner?_last_eq_none h hpath hsegments) with rfl | rfl
    · simp [ending, hpath] at hending
      split at hending <;> cases hending
    · simp [ending, steps, hsegments] at hending
  · have hsegments : segments path.toList = [path.toList] := List.splitOn_eq_singleton hslash
    have hfirst : Component.ofFirst? path.toList = some (.name name) := by
      simpa [components, hsegments, isAbsolute_of_components_eq_name h] using h
    unfold Component.ofFirst? Component.ofInner? at hfirst
    grind [String.ofList_toList]

/-! ### Names that are whole paths -/

/-- A plain name: the only part of the path is its whole text. -/
def IsPlainName (path : String) : Prop :=
  components path = [.name path]

instance (path : String) : Decidable (IsPlainName path) :=
  inferInstanceAs (Decidable (components path = [.name path]))

/-- What stands between two slashes has none itself. -/
theorem slash_notMem_segments {cs segment : List Char} (h : segment ∈ segments cs) :
    '/' ∉ segment := by
  induction cs generalizing segment with
  | nil => simp_all [segments]
  | cons c cs ih =>
    obtain ⟨first, rest, hcs⟩ := List.exists_cons_of_ne_nil (segments_ne_nil cs)
    rw [segments, List.splitOn_cons_eq_if_modifyHead, ← segments, hcs] at h
    rw [hcs] at ih
    split at h <;> grind [List.modifyHead_cons]

theorem toList_eq_of_ofInner? {segment : List Char} {name : String}
    (h : Component.ofInner? segment = some (.name name)) : name.toList = segment := by
  unfold Component.ofInner? at h
  split_ifs at h <;> cases h
  exact String.toList_ofList

theorem toList_eq_of_ofFirst? {segment : List Char} {name : String}
    (h : Component.ofFirst? segment = some (.name name)) : name.toList = segment := by
  unfold Component.ofFirst? at h
  split_ifs at h
  · cases h
  · exact toList_eq_of_ofInner? h

/-- A name in a path is what stands between two slashes. -/
theorem toList_mem_segments {path name : String} (h : .name name ∈ components path) :
    name.toList ∈ segments path.toList := by
  cases hsegments : segments path.toList with
  | nil => exact absurd hsegments (segments_ne_nil _)
  | cons first rest =>
    rw [components, hsegments, List.mem_append] at h
    rcases h with h | h
    · split at h
      · simp at h
      · rw [toList_eq_of_ofFirst? (Option.mem_toList.1 h)]
        exact List.mem_cons_self
    · obtain ⟨segment, hsegment, hname⟩ := List.mem_filterMap.1 h
      rw [toList_eq_of_ofInner? hname]
      exact List.mem_cons_of_mem _ hsegment

theorem IsPlainName.slash_notMem {name : String} (h : IsPlainName name) : '/' ∉ name.toList :=
  slash_notMem_segments (toList_mem_segments (h.symm ▸ List.mem_singleton_self _))

theorem IsPlainName.steps_eq {name : String} (h : IsPlainName name) : steps name = [name] := by
  have hne : name.toList ≠ [] := mt String.toList_eq_nil_iff.1 (ne_empty_of_components_eq_name h)
  rw [steps, segments, List.splitOn_eq_singleton h.slash_notMem]
  simp [hne]

end Path

namespace FileTree

variable {t : FileTree} {base path : String}

theorem hasDirectory_of_enter {place next : Location} {step : String}
    (h : t.enter place step = .ok next) : t.hasDirectory place = true := by
  unfold enter at h
  split at h
  · cases h
  · cases h
  · next hdirectory => exact hasDirectory_iff.2 hdirectory

/-- The directory that a joined path goes through. -/
theorem follow_of_follow_join {target : Target} (hbase : base ≠ "")
    (hrelative : Path.isAbsolute path = false) (hsteps : Path.steps path ≠ [])
    (h : t.follow (Path.join base path) = .ok target) :
    ∃ around, t.follow base = .ok around ∧ t.hasDirectory around.place = true := by
  obtain ⟨rest, hrest⟩ : ∃ rest, (Path.join base path).toList = base.toList ++ rest :=
    Path.exists_toList_join hrelative
  have hjoin : Path.join base path = base ++ String.ofList rest := by
    rw [← String.toList_inj, hrest, String.toList_append, String.toList_ofList]
  obtain ⟨⟨hnul, -, hlength⟩, hlast, -⟩ := follow_eq_ok_iff.1 h
  have hstart : t.start (Path.join base path) = t.start base := by
    simp [start, Path.isAbsolute_join hrelative]
  rw [Path.steps_join hrelative, List.foldlM_append, hstart] at hlast
  obtain ⟨around, haround, hstep⟩ := bind_eq_ok_iff.1 hlast
  obtain ⟨step, steps, hpath⟩ := List.exists_cons_of_ne_nil hsteps
  rw [hpath, List.foldlM_cons] at hstep
  obtain ⟨next, hnext, -⟩ := bind_eq_ok_iff.1 hstep
  rw [hjoin, String.utf8ByteSize_append] at hlength
  rw [hrest, List.mem_append, not_or] at hnul
  refine ⟨⟨around, Path.ending base⟩, ?_, hasDirectory_of_enter hnext⟩
  exact follow_eq_ok_iff.2 ⟨⟨hnul.1, hbase, by omega⟩, haround, rfl⟩

/-- A file with a plain name can be written in the directory in front of the name. -/
theorem writable_join_eq_ok {place : Location} (hname : Path.isSingleName path = true)
    (h : t.writable (Path.join base path) = .ok place) :
    place = Path.resolve t.workDir base ++ [path] ∧ t.hasDirectory place = false := by
  obtain ⟨name, hname⟩ := Path.isSingleName_iff.1 hname
  obtain ⟨target, hfollow, hending, hdirectory, rfl⟩ := writable_eq_ok_iff.1 h
  rw [← (follow_eq_ok_iff.1 hfollow).2.2, Path.ending_join
    (Path.isAbsolute_of_components_eq_name hname)
    (Path.steps_ne_nil_of_components_eq_name hname)] at hending
  obtain rfl := Path.eq_of_components_eq_name hname hending
  refine ⟨?_, hdirectory⟩
  rw [place_of_follow hfollow, Path.resolve_join, Path.resolve_of_components_eq_name _ hname]

/-- A file with a plain name that is written in full holds all its bytes. -/
theorem write_join_eq_ok {u : FileTree} {content : ByteArray} {device : Device} {done : Unit}
    (hname : Path.isSingleName path = true)
    (h : t.write (Path.join base path) content device = (.ok done, u)) :
    t.hasDirectory (Path.resolve t.workDir base ++ [path]) = false ∧
      u = t.put (Path.resolve t.workDir base ++ [path]) (.file content) := by
  rcases t.write_cases (Path.join base path) content device with ⟨_, hwrite⟩ | ⟨place, hplace,
    ⟨_, _, -, -, hwrite⟩ | hwrite⟩
  · cases h.symm.trans hwrite
  · cases h.symm.trans hwrite
  · obtain ⟨rfl, hdirectory⟩ := writable_join_eq_ok hname hplace
    exact ⟨hdirectory, (Prod.mk.inj (h.symm.trans hwrite)).2⟩

/-- A file with a plain name that is not written in full changes nothing, or it holds the bytes in
front of the limit of the device. -/
theorem write_join_eq_error {u : FileTree} {content : ByteArray} {device : Device}
    {reason : SystemError} (hname : Path.isSingleName path = true)
    (h : t.write (Path.join base path) content device = (.error reason, u)) :
    u = t ∨ ∃ taken, device.limit? (Path.resolve t.workDir base ++ [path]) =
          some (taken, reason) ∧
        taken < content.size ∧
        u = t.put (Path.resolve t.workDir base ++ [path])
          (.file (content.extract 0 taken)) := by
  rcases t.write_cases (Path.join base path) content device with ⟨_, hwrite⟩ | ⟨place, hplace,
    ⟨taken, _, hlimit, htaken, hwrite⟩ | hwrite⟩
  · exact .inl (Prod.mk.inj (h.symm.trans hwrite)).2
  · obtain ⟨rfl, -⟩ := writable_join_eq_ok hname hplace
    obtain ⟨hreason, hput⟩ := Prod.mk.inj (h.symm.trans hwrite)
    obtain rfl := Except.error.inj hreason
    exact .inr ⟨taken, hlimit, htaken, hput⟩
  · cases h.symm.trans hwrite

end FileTree

end WidgetSkin
