import Mathlib.Data.List.Nodup
import WidgetSkin.Proofs.FileTree.Stations
import WidgetSkin.Proofs.Skin.Layout

/-!
# One copy among others

The copies of a plan go to different places among the resources. If no source stands there, a copy
does the same whichever of the other copies have been made: it is left out, or it fails, or it adds
the file that stood at its source at first. Only the reason of a failure can be another.

## Main definitions

* `AssetPlan.Ready` — what the copies of a plan rely on.
* `AssetJob.SameUpToReason` — outcomes that differ at most in why a copy failed.
* `AssetJob.addition?` — the file that a copy adds.
* `AssetPlan.LeadsAround` — no image is looked for through a place that a copy fills.

## Main statements

* `AssetPlan.Ready.targetPlace_inj` — different copies go to different places.
* `AssetPlan.Ready.run_snd` — a copy adds its file, among whatever other copies.
* `AssetPlan.Ready.sameUpToReason_run`, `AssetPlan.Ready.run_fst_eq` — its outcome.
-/

namespace WidgetSkin

variable {fonts : FontCache} {resources : String} {t u : FileTree} {job : AssetJob}
  {plan : AssetPlan}

/-! ## Outcomes -/

namespace AssetJob

/-- The fault of a copy that fails for a reason. -/
def fault (fonts : FontCache) (resources : String) (job : AssetJob) (reason : SystemError) :
    Fault :=
  .asset (job.source fonts) (.copyFailed (job.target resources) reason)

/-- Whether a copy fails. -/
def fails (fonts : FontCache) (resources : String) (t : FileTree) (job : AssetJob) : Bool :=
  (job.run fonts resources t).1.fault?.isSome

/-- Two outcomes of a copy that differ at most in why it failed. -/
inductive SameUpToReason (fonts : FontCache) (resources : String) (job : AssetJob) :
    AssetOutcome → AssetOutcome → Prop
  | same (outcome : AssetOutcome) : SameUpToReason fonts resources job outcome outcome
  | failed (reason other : SystemError) : SameUpToReason fonts resources job
      (.failed (job.fault fonts resources reason)) (.failed (job.fault fonts resources other))

theorem run_fst (fonts : FontCache) (resources : String) (job : AssetJob) (t : FileTree) :
    (job.run fonts resources t).1 =
      if job.isMissingFont fonts t then .skipped
      else match t.copyOf (job.source fonts) (job.target resources) with
        | .ok _ => .copied
        | .error reason => .failed (job.fault fonts resources reason) := by
  unfold run FileTree.copy
  split
  · rfl
  · cases t.copyOf (job.source fonts) (job.target resources) <;> rfl

/-- A copy fails with its own fault. -/
theorem exists_fault_of_run {fault : Fault}
    (h : (job.run fonts resources t).1.fault? = some fault) :
    ∃ reason, fault = job.fault fonts resources reason := by
  rw [run_fst] at h
  split at h
  · cases h
  · split at h
    · cases h
    · exact ⟨_, (Option.some.inj h).symm⟩

theorem run_fst_of_not_fails (h : job.fails fonts resources t = false) :
    (job.run fonts resources t).1 = if job.isMissingFont fonts t then .skipped else .copied := by
  rcases job.run_cases fonts resources t with ⟨hmissing, hrun⟩ | ⟨-, fault, hrun⟩ |
    ⟨hmissing, content, -, hrun⟩
  · simp [hmissing, hrun]
  · simp [fails, hrun, AssetOutcome.fault?] at h
  · simp [hmissing, hrun]

/-- The file that a copy adds, if it can be made. -/
def addition? (fonts : FontCache) (resources : String) (t : FileTree) (job : AssetJob) :
    Option (Location × Node) :=
  if (job.run fonts resources t).1 = .copied then
    (t.node? (job.sourcePlace fonts t.workDir)).map (job.targetPlace resources t.workDir, ·)
  else none

theorem addition?_eq_some_iff {place : Location} {node : Node} :
    job.addition? fonts resources t = some (place, node) ↔
      (job.run fonts resources t).1 = .copied ∧
      t.node? (job.sourcePlace fonts t.workDir) = some node ∧
      job.targetPlace resources t.workDir = place := by
  unfold addition?
  split <;> simp_all [and_comm]

namespace SameUpToReason

variable {outcome other : AssetOutcome}

theorem isSome_fault? (h : job.SameUpToReason fonts resources outcome other) :
    outcome.fault?.isSome = other.fault?.isSome := by
  cases h <;> rfl

theorem eq_copied_iff (h : job.SameUpToReason fonts resources outcome other) :
    outcome = .copied ↔ other = .copied := by
  cases h <;> simp

/-- A copy that fails does so with its own fault. -/
theorem exists_fault (h : job.SameUpToReason fonts resources outcome (job.run fonts resources t).1)
    {fault : Fault} (hfault : outcome.fault? = some fault) :
    ∃ reason, fault = job.fault fonts resources reason := by
  generalize hother : (job.run fonts resources t).1 = other at h
  cases h with
  | same => exact exists_fault_of_run (hother ▸ hfault)
  | failed reason other => exact ⟨reason, (Option.some.inj hfault).symm⟩

/-- A copy that does not fail is left out or made. -/
theorem eq_of_not_fails
    (h : job.SameUpToReason fonts resources outcome (job.run fonts resources t).1)
    (hfails : job.fails fonts resources t = false) :
    outcome = if job.isMissingFont fonts t then .skipped else .copied := by
  have hrun := run_fst_of_not_fails hfails
  generalize hother : (job.run fonts resources t).1 = other at h
  cases h with
  | same => rw [← hother, hrun]
  | failed reason other => simp [fails, hother, AssetOutcome.fault?] at hfails

end SameUpToReason

end AssetJob

/-! ## Places -/

namespace AssetPlan

/-- Where the copies of a plan go. -/
def targetPlaces (plan : AssetPlan) (resources : String) (directory : Location) :
    List Location :=
  plan.jobs.map (·.targetPlace resources directory)

/-- What the copies of a plan rely on: the fonts are different plain file names, the directories
for fonts and images are there, and no source stands among the resources. -/
structure Ready (plan : AssetPlan) (fonts : FontCache) (resources : String) (t : FileTree) :
    Prop where
  plain_fonts : ∀ f ∈ plan.fonts, Path.IsPlainName f
  nodup_fonts : plan.fonts.Nodup
  fonts_directory : t.isDirectory (Path.join resources fontsDirectory) = true
  images_directory : t.isDirectory (Path.join resources imagesDirectory) = true
  sources_outside : ∀ job ∈ plan.jobs,
    ¬ Path.resolve t.workDir resources <+: job.sourcePlace fonts t.workDir

/-- No image is looked for through a place where nothing stands and a copy goes. -/
def LeadsAround (plan : AssetPlan) (resources : String) (t : FileTree) : Prop :=
  ∀ source ∈ plan.images, ∀ station ∈ Path.stations t.workDir source,
    t.node? station = none → station ∉ plan.targetPlaces resources t.workDir

theorem nodup_jobs (h : plan.fonts.Nodup) : plan.jobs.Nodup := by
  have hfonts : (plan.fonts.map AssetJob.font).Nodup := h.map fun _ _ => AssetJob.font.inj
  have himages : (plan.images.mapIdx AssetJob.image).Nodup := by
    refine List.pairwise_iff_getElem.2 fun i j hi hj hlt heq => ?_
    rw [List.getElem_mapIdx, List.getElem_mapIdx, AssetJob.image.injEq] at heq
    exact Nat.ne_of_lt hlt heq.1
  exact List.Nodup.append hfonts himages (by simp [List.Disjoint])

/-- A copy of the plan can only fill one of the places where copies go. -/
theorem filledAt_run (hjob : job ∈ plan.jobs)
    (hu : FileTree.FilledAt (plan.targetPlaces resources t.workDir) t u) :
    FileTree.FilledAt (plan.targetPlaces resources t.workDir) t (job.run fonts resources u).2 := by
  rcases job.run_cases fonts resources u with ⟨-, hrun⟩ | ⟨-, fault, hrun⟩ |
    ⟨-, content, hcopied, hrun⟩
  · rwa [hrun]
  · rwa [hrun]
  · rw [hrun]
    refine hu.put ?_ hcopied.hasDirectory_target content
    rw [hu.sameWalks.workDir_eq]
    exact List.mem_map_of_mem hjob

namespace Ready

theorem targetPlace_eq_append (h : plan.Ready fonts resources t) (hjob : job ∈ plan.jobs) :
    ∃ kind name, job.placeIn [] = [resourcesDirectory, kind, name] ∧
      job.targetPlace resources t.workDir =
        Path.resolve t.workDir resources ++ [kind, name] := by
  rcases mem_jobs_iff.1 hjob with ⟨fileName, hplanned, rfl⟩ | ⟨index, _, rfl⟩
  · refine ⟨_, _, rfl, ?_⟩
    simp [AssetJob.targetPlace, AssetJob.target, resolve_fontsDirectory,
      Path.resolve_of_components_eq_name _ (h.plain_fonts fileName hplanned)]
  · refine ⟨_, _, rfl, ?_⟩
    simp [AssetJob.targetPlace, AssetJob.target, resolve_imagesDirectory,
      Path.resolve_of_components_eq_name _ (components_imageFileName index)]

/-- Different copies go to different places. -/
theorem targetPlace_inj (h : plan.Ready fonts resources t) {other : AssetJob}
    (hjob : job ∈ plan.jobs) (hother : other ∈ plan.jobs)
    (heq : job.targetPlace resources t.workDir = other.targetPlace resources t.workDir) :
    job = other := by
  obtain ⟨kind, name, hplace, htarget⟩ := h.targetPlace_eq_append hjob
  obtain ⟨kind', name', hplace', htarget'⟩ := h.targetPlace_eq_append hother
  rw [htarget, htarget'] at heq
  have hplaces : job.placeIn [] = other.placeIn [] := by
    rw [hplace, hplace', List.append_cancel_left heq]
  exact AssetJob.placeIn_inj hjob hother hplaces

/-- No copy goes where a source stands. -/
theorem sourcePlace_notMem (h : plan.Ready fonts resources t) (hjob : job ∈ plan.jobs) :
    job.sourcePlace fonts t.workDir ∉ plan.targetPlaces resources t.workDir := by
  intro hmem
  obtain ⟨other, hother, heq⟩ := List.mem_map.1 hmem
  obtain ⟨kind, name, -, htarget⟩ := h.targetPlace_eq_append hother
  refine h.sources_outside job hjob ?_
  rw [← heq, htarget]
  exact List.prefix_append _ _

/-- The walk to where a copy goes leads through a directory that is there. -/
theorem follow_target_eq (h : plan.Ready fonts resources t) (hjob : job ∈ plan.jobs)
    (hwalks : t.KeepsWalks u) :
    u.follow (job.target resources) = t.follow (job.target resources) := by
  rcases mem_jobs_iff.1 hjob with ⟨fileName, hplanned, rfl⟩ | ⟨index, _, rfl⟩
  · have hplain := h.plain_fonts fileName hplanned
    exact hwalks.follow_join_eq h.fonts_directory
      (Path.isAbsolute_of_components_eq_name hplain) hplain.steps_eq
  · have hplain : Path.IsPlainName (imageFileName index) := components_imageFileName index
    exact hwalks.follow_join_eq h.images_directory
      (Path.isAbsolute_of_components_eq_name hplain) hplain.steps_eq

/-! ## One copy -/

variable (h : plan.Ready fonts resources t) (hjob : job ∈ plan.jobs)
  (hu : FileTree.FilledAt (plan.targetPlaces resources t.workDir) t u)

include h hjob hu

/-- The same fonts are left out. -/
theorem isMissingFont_eq : job.isMissingFont fonts u = job.isMissingFont fonts t := by
  cases job with
  | image index source => rfl
  | font fileName =>
    have hplace := h.sourcePlace_notMem hjob
    exact congrArg not (hu.sameWalks.isFile_eq (hu.node?_eq _ hplace))

theorem writable_target_eq :
    u.writable (job.target resources) = t.writable (job.target resources) :=
  hu.sameWalks.writable_eq (h.follow_target_eq hjob hu.sameWalks.keepsWalks)

/-- The same copies can be made. -/
theorem copyOf_eq_ok_iff (file : Location × ByteArray) :
    u.copyOf (job.source fonts) (job.target resources) = .ok file ↔
      t.copyOf (job.source fonts) (job.target resources) = .ok file := by
  obtain ⟨place, content⟩ := file
  have hsource := h.sourcePlace_notMem hjob
  simp only [FileTree.copyOf_eq_ok_iff, h.writable_target_eq hjob hu,
    hu.find_eq_file_iff hsource]

/-- A copy does the same up to the reason for which it fails. -/
theorem sameUpToReason_run : job.SameUpToReason fonts resources
    (job.run fonts resources u).1 (job.run fonts resources t).1 := by
  have hcopy := h.copyOf_eq_ok_iff hjob hu
  rw [AssetJob.run_fst, AssetJob.run_fst, h.isMissingFont_eq hjob hu]
  split
  · exact .same _
  · cases hcu : u.copyOf (job.source fonts) (job.target resources) <;>
      cases hct : t.copyOf (job.source fonts) (job.target resources) <;>
      simp [hcu, hct] at hcopy ⊢
    · exact .failed _ _
    · exact .same _

/-- A copy that is not left out finds what it found before, if images are looked for around the
places that copies fill. -/
theorem find_source_eq (hplan : plan.LeadsAround resources t)
    (hmissing : job.isMissingFont fonts t = false) :
    u.find (job.source fonts) = t.find (job.source fonts) := by
  refine hu.find_eq (h.sourcePlace_notMem hjob) ?_
  rcases mem_jobs_iff.1 hjob with ⟨fileName, -, rfl⟩ | ⟨index, _, rfl⟩
  · -- the font is there, so the walk to it leads somewhere
    have hfile : t.isFile (fonts.sourcePath fileName) = true := by
      simpa [AssetJob.isMissingFont] using hmissing
    obtain ⟨target, -, hfollow, -⟩ := FileTree.isFile_iff.1 hfile
    exact (hu.sameWalks.keepsWalks.follow hfollow).trans hfollow.symm
  · exact hu.follow_eq (hplan _ (List.getElem_mem _))

/-- If images are looked for around the places that copies fill, a copy fails for the same reason
as well. -/
theorem run_fst_eq (hplan : plan.LeadsAround resources t) :
    (job.run fonts resources u).1 = (job.run fonts resources t).1 := by
  rw [AssetJob.run_fst, AssetJob.run_fst, h.isMissingFont_eq hjob hu]
  cases hmissing : job.isMissingFont fonts t with
  | true => rfl
  | false =>
    rw [FileTree.copyOf_eq (h.find_source_eq hjob hu hplan hmissing)
      (h.writable_target_eq hjob hu)]

/-! ## The file that a copy adds -/

/-- A copy that is made among others puts what stood at its source at first. -/
theorem exists_content (hcopied : (job.run fonts resources u).1 = .copied) :
    ∃ content, t.node? (job.sourcePlace fonts t.workDir) = some (.file content) ∧
      (job.run fonts resources u).2 =
        u.put (job.targetPlace resources t.workDir) (.file content) := by
  have hplace := h.sourcePlace_notMem hjob
  rcases job.run_cases fonts resources u with ⟨-, hrun⟩ | ⟨-, fault, hrun⟩ |
    ⟨-, content, hcopy, hrun⟩
  · simp [hrun] at hcopied
  · simp [hrun] at hcopied
  · have hnode := hcopy.node?_source
    rw [hu.sameWalks.workDir_eq, hu.node?_eq _ hplace] at hnode
    refine ⟨content, hnode fun heq => hplace ?_, by rw [hrun, hu.sameWalks.workDir_eq]⟩
    exact heq ▸ List.mem_map_of_mem hjob

/-- A copy adds its file, whichever other copies have been made. -/
theorem run_snd : (job.run fonts resources u).2 =
    u.putAll (job.addition? fonts resources t).toList := by
  have houtcome := (h.sameUpToReason_run hjob hu).eq_copied_iff
  by_cases hcopied : (job.run fonts resources u).1 = .copied
  · obtain ⟨content, hnode, hput⟩ := h.exists_content hjob hu hcopied
    rw [hput, AssetJob.addition?, if_pos (houtcome.1 hcopied), hnode]
    rfl
  · rw [AssetJob.addition?, if_neg (mt houtcome.2 hcopied)]
    rcases job.run_cases fonts resources u with ⟨-, hrun⟩ | ⟨-, fault, hrun⟩ | ⟨-, _, -, hrun⟩
    · simp [hrun]
    · simp [hrun]
    · exact absurd (congrArg Prod.fst hrun) hcopied

end Ready

end AssetPlan

end WidgetSkin
