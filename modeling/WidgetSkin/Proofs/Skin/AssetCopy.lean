import WidgetSkin.Proofs.FileTree.Additions
import WidgetSkin.Skin.AssetCopy

/-!
# What copies add

A copy that is tried adds one file or nothing. All copies of a plan add the files of those that
succeed, whatever becomes of the others. If no copy goes where a source stands, every added file
holds what its source held before, and what is left out are the fonts without a file. On a device
that may fail the copies go to the same places, and if none fails the device has no part in it.

## Main definitions

* `AssetJob.sourcePlace`, `AssetJob.targetPlace` — where a copy comes from and goes to.
* `copyEntries` — the files that copies add.
* `Made` — the copies that succeed.

## Main statements

* `AssetJob.run_cases` — what one copy can do.
* `exists_made` — what several copies add.
* `ofOutcomes_eq` — the first fault, or the report.
* `copyAssets_eq_ok` — the report and the files when all copies succeed.
* `copyAssets_eq_of_ok`, `exists_copies_of_settle` — copies on a device that may fail.
-/

namespace WidgetSkin

variable {fonts : FontCache} {resources : String} {t : FileTree} {job : AssetJob}
  {jobs : List AssetJob} {content : ByteArray}

namespace AssetJob

/-- Where the file stands that is copied. -/
def sourcePlace (fonts : FontCache) (directory : Location) (job : AssetJob) : Location :=
  Path.resolve directory (job.source fonts)

/-- Where the copy goes. -/
def targetPlace (resources : String) (directory : Location) (job : AssetJob) : Location :=
  Path.resolve directory (job.target resources)

/-- A copy has been made: it goes where a file can stand, and it has the bytes of its source,
unless it was made onto its source. -/
structure Copied (fonts : FontCache) (resources : String) (t : FileTree) (job : AssetJob)
    (content : ByteArray) : Prop where
  ending_target : Path.ending (job.target resources) = .name
  hasDirectory_target : t.hasDirectory (job.targetPlace resources t.workDir) = false
  node?_source : job.targetPlace resources t.workDir ≠ job.sourcePlace fonts t.workDir →
    t.node? (job.sourcePlace fonts t.workDir) = some (.file content)

/-- A copy is left out, or fails, or puts one file. -/
theorem run_cases (fonts : FontCache) (resources : String) (job : AssetJob) (t : FileTree) :
    (job.isMissingFont fonts t = true ∧ job.run fonts resources t = (.skipped, t)) ∨
    (job.isMissingFont fonts t = false ∧
      ∃ fault, job.run fonts resources t = (.failed fault, t)) ∨
    (job.isMissingFont fonts t = false ∧ ∃ content, job.Copied fonts resources t content ∧
      job.run fonts resources t =
        (.copied, t.put (job.targetPlace resources t.workDir) (.file content))) := by
  cases hmissing : job.isMissingFont fonts t with
  | true => exact .inl ⟨rfl, by simp [run, hmissing]⟩
  | false =>
    refine .inr ?_
    cases hcopy : t.copyOf (job.source fonts) (job.target resources) with
    | error reason => exact .inl ⟨rfl, _, by simp [run, FileTree.copy, hmissing, hcopy]; rfl⟩
    | ok file =>
      refine .inr ⟨rfl, ?_⟩
      obtain ⟨place, content⟩ := file
      obtain ⟨read, stored, hfind, hwritten, hcontent⟩ := FileTree.copyOf_eq_ok_iff.1 hcopy
      obtain ⟨source, hsource, -, rfl, hread⟩ := FileTree.find_eq_file_iff.1 hfind
      obtain ⟨target, htarget, hending, hdirectory, rfl⟩ := FileTree.writable_eq_ok_iff.1 hwritten
      have htargetPlace : target.place = job.targetPlace resources t.workDir :=
        FileTree.place_of_follow htarget
      have hsourcePlace : source.place = job.sourcePlace fonts t.workDir :=
        FileTree.place_of_follow hsource
      have hrun : job.run fonts resources t =
          (.copied, t.put (job.targetPlace resources t.workDir) (.file content)) := by
        simp [run, FileTree.copy, hmissing, hcopy, htargetPlace]
      rw [htargetPlace, hsourcePlace] at hcontent
      refine ⟨_, ⟨?_, htargetPlace ▸ hdirectory, fun hne => ?_⟩, hrun⟩
      · rw [← hending]
        exact (FileTree.follow_eq_ok_iff.1 htarget).2.2
      · rw [if_neg hne] at hcontent
        rw [← hsourcePlace, hread, hcontent]

/-- A file that is put elsewhere, where no directory stands, does not make a font appear or
disappear. -/
theorem isMissingFont_put {place : Location} (hdirectory : t.hasDirectory place = false)
    (hplace : place ≠ job.sourcePlace fonts t.workDir) :
    job.isMissingFont fonts (t.put place (.file content)) = job.isMissingFont fonts t := by
  cases job with
  | font fileName =>
    refine congrArg not ((FileTree.sameWalks_put hdirectory content).isFile_eq ?_)
    exact FileTree.node?_put_of_ne _ hplace.symm
  | image index source => rfl

end AssetJob

/-! ## Several copies -/

/-- The files that copies add. -/
def copyEntries (resources : String) (directory : Location)
    (copies : List (AssetJob × ByteArray)) : List (Location × Node) :=
  copies.map fun copy => (copy.1.targetPlace resources directory, .file copy.2)

/-- The jobs with an outcome. -/
def jobsWith (outcome : AssetOutcome) (outcomes : List (AssetJob × AssetOutcome)) :
    List AssetJob :=
  (outcomes.filter (·.2 = outcome)).map Prod.fst

@[simp] theorem jobsWith_cons (outcome : AssetOutcome) (pair : AssetJob × AssetOutcome)
    (outcomes : List (AssetJob × AssetOutcome)) :
    jobsWith outcome (pair :: outcomes) =
      if pair.2 = outcome then pair.1 :: jobsWith outcome outcomes
      else jobsWith outcome outcomes := by
  by_cases h : pair.2 = outcome <;> simp [jobsWith, h]

theorem map_fst_settle (fonts : FontCache) (resources : String) (jobs : List AssetJob)
    (t : FileTree) : (settle fonts resources jobs t).1.map Prod.fst = jobs := by
  induction jobs generalizing t with
  | nil => rfl
  | cons job jobs ih => rw [settle, List.map_cons, ih]

theorem settle_cons_snd (fonts : FontCache) (resources : String) (job : AssetJob)
    (jobs : List AssetJob) (t : FileTree) (device : Device) :
    (settle fonts resources (job :: jobs) t device).2 =
      (settle fonts resources jobs (job.run fonts resources t device).2 device).2 := rfl

/-- The copies that succeed when jobs are tried one after the other. Their files are what is added.
Each can stand where it was put, and it holds what its source held at first, unless another copy
went there. -/
structure Made (fonts : FontCache) (resources : String) (jobs : List AssetJob) (t : FileTree)
    (copies : List (AssetJob × ByteArray)) : Prop where
  jobs_eq : copies.map Prod.fst = jobsWith .copied (settle fonts resources jobs t).1
  tree_eq : (settle fonts resources jobs t).2 = t.putAll (copyEntries resources t.workDir copies)
  ending_target : ∀ copy ∈ copies, Path.ending (copy.1.target resources) = .name
  node?_source : ∀ copy ∈ copies,
    (∀ other ∈ jobs,
      other.targetPlace resources t.workDir ≠ copy.1.sourcePlace fonts t.workDir) →
    t.node? (copy.1.sourcePlace fonts t.workDir) = some (.file copy.2)

namespace Made

variable {copies : List (AssetJob × ByteArray)} {copy : AssetJob × ByteArray}

theorem mem_jobs (h : Made fonts resources jobs t copies) (hcopy : copy ∈ copies) :
    copy.1 ∈ jobs := by
  have hmem : copy.1 ∈ copies.map Prod.fst := List.mem_map_of_mem hcopy
  rw [h.jobs_eq] at hmem
  simpa [map_fst_settle] using (List.filter_sublist.map Prod.fst).mem hmem

/-- A copy that is left out and one that fails change nothing. -/
theorem idle (h : Made fonts resources jobs t copies) {outcome : AssetOutcome}
    (hrun : job.run fonts resources t = (outcome, t)) (houtcome : outcome ≠ .copied) :
    Made fonts resources (job :: jobs) t copies where
  jobs_eq := by simp [settle, hrun, h.jobs_eq, houtcome]
  tree_eq := by simp [settle, hrun, h.tree_eq]
  ending_target := h.ending_target
  node?_source copy hcopy hothers :=
    h.node?_source copy hcopy (List.forall_mem_cons.1 hothers).2

theorem cons (hcopied : job.Copied fonts resources t content)
    (hrun : job.run fonts resources t =
      (.copied, t.put (job.targetPlace resources t.workDir) (.file content)))
    (h : Made fonts resources jobs (t.put (job.targetPlace resources t.workDir) (.file content))
      copies) :
    Made fonts resources (job :: jobs) t ((job, content) :: copies) where
  jobs_eq := by simp [settle, hrun, h.jobs_eq]
  tree_eq := by
    simp only [settle, hrun, h.tree_eq]
    rfl
  ending_target := List.forall_mem_cons.2 ⟨hcopied.ending_target, h.ending_target⟩
  node?_source := by
    refine List.forall_mem_cons.2 ⟨fun hothers => ?_, fun copy hcopy hothers => ?_⟩
    · exact hcopied.node?_source (hothers job List.mem_cons_self)
    · rw [List.forall_mem_cons] at hothers
      rw [← FileTree.node?_put_of_ne _ hothers.1.symm]
      exact h.node?_source copy hcopy hothers.2

end Made

/-- Several copies add the files of those that succeed. -/
theorem exists_made (fonts : FontCache) (resources : String) (jobs : List AssetJob)
    (t : FileTree) : ∃ copies, Made fonts resources jobs t copies := by
  induction jobs generalizing t with
  | nil => exact ⟨[], rfl, rfl, by simp, by simp⟩
  | cons job jobs ih =>
    rcases job.run_cases fonts resources t with ⟨-, hrun⟩ | ⟨-, fault, hrun⟩ |
      ⟨-, content, hcopied, hrun⟩
    · obtain ⟨copies, hmade⟩ := ih t
      exact ⟨copies, hmade.idle hrun (by simp)⟩
    · obtain ⟨copies, hmade⟩ := ih t
      exact ⟨copies, hmade.idle hrun (by simp)⟩
    · obtain ⟨copies, hmade⟩ := ih (t.put (job.targetPlace resources t.workDir) (.file content))
      exact ⟨(job, content) :: copies, .cons hcopied hrun hmade⟩

/-- If no copy goes where a directory or a source stands, and none fails, those jobs are left out
that are fonts without a file at first. -/
theorem settle_eq_map (hdirectories : ∀ job ∈ jobs,
      t.hasDirectory (job.targetPlace resources t.workDir) = false)
    (hsources : ∀ job ∈ jobs, ∀ other ∈ jobs,
      other.targetPlace resources t.workDir ≠ job.sourcePlace fonts t.workDir)
    (hok : ∀ pair ∈ (settle fonts resources jobs t).1, ∀ fault, pair.2 ≠ .failed fault) :
    (settle fonts resources jobs t).1 = jobs.map fun job =>
      (job, if job.isMissingFont fonts t then .skipped else .copied) := by
  induction jobs generalizing t with
  | nil => rfl
  | cons job jobs ih =>
    rw [List.forall_mem_cons] at hdirectories
    have hsources' : ∀ first ∈ jobs, ∀ other ∈ jobs,
        other.targetPlace resources t.workDir ≠ first.sourcePlace fonts t.workDir :=
      fun first hfirst other hother =>
        hsources first (List.mem_cons_of_mem _ hfirst) other (List.mem_cons_of_mem _ hother)
    rcases job.run_cases fonts resources t with ⟨hmissing, hrun⟩ | ⟨-, fault, hrun⟩ |
      ⟨hmissing, content, hcopied, hrun⟩
    · simp only [settle, hrun, List.map_cons, hmissing, if_true, List.forall_mem_cons] at hok ⊢
      rw [ih hdirectories.2 hsources' hok.2]
    · simp only [settle, hrun, List.forall_mem_cons] at hok
      exact absurd rfl (hok.1 fault)
    · have hwalks := FileTree.sameWalks_put hcopied.hasDirectory_target content
      have hrest := ih (fun other hother =>
        (hwalks.hasDirectory_eq _).trans (hdirectories.2 other hother)) hsources'
      simp only [settle, hrun, List.map_cons, hmissing, List.forall_mem_cons] at hok ⊢
      rw [hrest hok.2]
      refine congrArg _ (List.map_congr_left fun other hother => ?_)
      rw [AssetJob.isMissingFont_put hcopied.hasDirectory_target]
      exact hsources other (List.mem_cons_of_mem _ hother) job List.mem_cons_self

theorem jobsWith_map (outcome : AssetOutcome) (jobs : List AssetJob)
    (outcomeOf : AssetJob → AssetOutcome) :
    jobsWith outcome (jobs.map fun job => (job, outcomeOf job)) =
      jobs.filter fun job => decide (outcomeOf job = outcome) := by
  simp [jobsWith, List.filter_map, Function.comp_def]

theorem jobsWith_skipped (jobs : List AssetJob) (missing : AssetJob → Bool) :
    jobsWith .skipped (jobs.map fun job => (job, if missing job then .skipped else .copied)) =
      jobs.filter missing := by
  rw [jobsWith_map]
  exact List.filter_congr fun job _ => by cases missing job <;> rfl

theorem jobsWith_copied (jobs : List AssetJob) (missing : AssetJob → Bool) :
    jobsWith .copied (jobs.map fun job => (job, if missing job then .skipped else .copied)) =
      jobs.filter fun job => !missing job := by
  rw [jobsWith_map]
  exact List.filter_congr fun job _ => by cases missing job <;> rfl

/-! ## The report -/

/-- The fault of an outcome, if it is a failure. -/
def AssetOutcome.fault? : AssetOutcome → Option Fault
  | copied | skipped => none
  | failed fault => some fault

namespace AssetJob

/-- The file of a font. -/
def fontName? : AssetJob → Option String
  | font fileName => some fileName
  | image _ _ => none

/-- The file that an image is copied to. -/
def imageTarget? (resources : String) : AssetJob → Option String
  | font _ => none
  | image index source => some ((image index source).target resources)

@[simp] theorem filterMap_fontName?_font (fileNames : List String) :
    (fileNames.map font).filterMap fontName? = fileNames := by
  simp [List.filterMap_map, Function.comp_def, fontName?]

@[simp] theorem filterMap_fontName?_image (sources : List String) :
    (sources.mapIdx image).filterMap fontName? = [] := by
  refine List.filterMap_eq_nil_iff.2 fun job hjob => ?_
  obtain ⟨index, hindex, rfl⟩ := List.mem_mapIdx.1 hjob
  rfl

end AssetJob

namespace AssetPlan

/-- What is left out are fonts. -/
theorem filter_isMissingFont (plan : AssetPlan) (fonts : FontCache) (t : FileTree) :
    plan.jobs.filter (·.isMissingFont fonts t) =
      (plan.fonts.filter fun f => !t.isFile (fonts.sourcePath f)).map .font := by
  have himages : (plan.images.mapIdx AssetJob.image).filter (·.isMissingFont fonts t) = [] := by
    refine List.filter_eq_nil_iff.2 fun job hjob => ?_
    obtain ⟨index, hindex, rfl⟩ := List.mem_mapIdx.1 hjob
    simp [AssetJob.isMissingFont]
  rw [jobs, List.filter_append, himages, List.append_nil, List.filter_map]
  rfl

/-- What is copied are the other fonts and all images. -/
theorem filter_not_isMissingFont (plan : AssetPlan) (fonts : FontCache) (t : FileTree) :
    plan.jobs.filter (fun job => !job.isMissingFont fonts t) =
      (plan.fonts.filter fun f => t.isFile (fonts.sourcePath f)).map .font ++
        plan.images.mapIdx .image := by
  have himages : (plan.images.mapIdx AssetJob.image).filter
      (fun job => !job.isMissingFont fonts t) = plan.images.mapIdx .image := by
    refine List.filter_eq_self.2 fun job hjob => ?_
    obtain ⟨index, hindex, rfl⟩ := List.mem_mapIdx.1 hjob
    rfl
  rw [jobs, List.filter_append, himages, List.filter_map]
  simp [Function.comp_def, AssetJob.isMissingFont]

end AssetPlan

/-- The first fault, or the report of what was copied and left out. -/
theorem ofOutcomes_eq (resources : String) (outcomes : List (AssetJob × AssetOutcome)) :
    AssetReport.ofOutcomes resources outcomes =
      match outcomes.findSome? (·.2.fault?) with
      | some fault => .error fault
      | none => .ok
        { fontsCopied := (jobsWith .copied outcomes).filterMap AssetJob.fontName?
          fontsSkipped := (jobsWith .skipped outcomes).filterMap AssetJob.fontName?
          imagesCopied := (jobsWith .copied outcomes).filterMap
            (AssetJob.imageTarget? resources) } := by
  induction outcomes with
  | nil => rfl
  | cons pair outcomes ih =>
    obtain ⟨job, outcome⟩ := pair
    cases outcome with
    | failed fault => rfl
    | copied | skipped =>
      rw [AssetReport.ofOutcomes, ih, List.findSome?_cons]
      · cases outcomes.findSome? (·.2.fault?) with
        | some fault => rfl
        | none =>
          cases job <;>
            simp [Except.map, AssetReport.add, AssetOutcome.fault?, List.filterMap_cons,
              AssetJob.fontName?, AssetJob.imageTarget?]
      · simp

/-- A report is made if no job failed, and tells the fonts by their outcome. -/
theorem ofOutcomes_eq_ok {outcomes : List (AssetJob × AssetOutcome)} {report : AssetReport}
    (h : AssetReport.ofOutcomes resources outcomes = .ok report) :
    (∀ pair ∈ outcomes, ∀ fault, pair.2 ≠ .failed fault) ∧
    report.fontsCopied = (jobsWith .copied outcomes).filterMap AssetJob.fontName? ∧
    report.fontsSkipped = (jobsWith .skipped outcomes).filterMap AssetJob.fontName? := by
  rw [ofOutcomes_eq] at h
  split at h
  · cases h
  · next hnone =>
    obtain rfl := Except.ok.inj h
    refine ⟨fun pair hpair fault heq => ?_, rfl, rfl⟩
    have hfault := List.findSome?_eq_none_iff.1 hnone pair hpair
    rw [heq] at hfault
    cases hfault

/-- When all copies succeed, and none goes where a directory or a source stands, the report tells
the planned fonts with a file from those without one, and every copied font and every image is a
file with the bytes of its source. -/
theorem copyAssets_eq_ok {plan : AssetPlan} {report : AssetReport} {u : FileTree}
    (hdirectories : ∀ job ∈ plan.jobs,
      t.hasDirectory (job.targetPlace resources t.workDir) = false)
    (hsources : ∀ job ∈ plan.jobs, ∀ other ∈ plan.jobs,
      other.targetPlace resources t.workDir ≠ job.sourcePlace fonts t.workDir)
    (h : copyAssets plan fonts resources t = (.ok report, u)) :
    report.fontsCopied = plan.fonts.filter (fun f => t.isFile (fonts.sourcePath f)) ∧
    report.fontsSkipped = plan.fonts.filter (fun f => !t.isFile (fonts.sourcePath f)) ∧
    ∃ copies : List (AssetJob × ByteArray),
      copies.map Prod.fst = report.fontsCopied.map .font ++ plan.images.mapIdx .image ∧
      u = t.putAll (copyEntries resources t.workDir copies) ∧
      ∀ copy ∈ copies, Path.ending (copy.1.target resources) = .name ∧
        t.node? (copy.1.sourcePlace fonts t.workDir) = some (.file copy.2) := by
  obtain ⟨hreport, htree⟩ := Prod.mk.inj h
  obtain ⟨hok, hcopied, hskipped⟩ := ofOutcomes_eq_ok hreport
  rw [settle_eq_map hdirectories hsources hok, jobsWith_copied, plan.filter_not_isMissingFont,
    List.filterMap_append, AssetJob.filterMap_fontName?_font, AssetJob.filterMap_fontName?_image,
    List.append_nil] at hcopied
  rw [settle_eq_map hdirectories hsources hok, jobsWith_skipped, plan.filter_isMissingFont,
    AssetJob.filterMap_fontName?_font] at hskipped
  refine ⟨hcopied, hskipped, ?_⟩
  obtain ⟨copies, hmade⟩ := exists_made fonts resources plan.jobs t
  refine ⟨copies, ?_, htree.symm.trans hmade.tree_eq, fun copy hcopy =>
    ⟨hmade.ending_target copy hcopy, hmade.node?_source copy hcopy ?_⟩⟩
  · rw [hmade.jobs_eq, settle_eq_map hdirectories hsources hok, jobsWith_copied,
      plan.filter_not_isMissingFont, hcopied]
  · exact hsources copy.1 (hmade.mem_jobs hcopy)

/-! ## Copies on a device that may fail -/

section Device

variable {device : Device}

/-- A copy that does not fail is the one of a device that never fails. -/
theorem AssetJob.run_eq_of_not_failed
    (h : ∀ fault, (job.run fonts resources t device).1 ≠ .failed fault) :
    job.run fonts resources t device = job.run fonts resources t := by
  unfold run FileTree.copy at h ⊢
  split
  · rfl
  · next hmissing =>
    rw [if_neg hmissing] at h
    rcases t.store_cases (t.copyOf (job.source fonts) (job.target resources)) device with
      ⟨reason, hstore⟩ | ⟨place, content, hfile, ⟨taken, reason, -, -, hstore⟩ | hstore⟩
    · exact absurd (by rw [hstore]) (h _)
    · exact absurd (by rw [hstore]) (h _)
    · rw [hstore, hfile, FileTree.store_sound]

/-- A copy puts at most one file, and that where it goes. -/
theorem AssetJob.eq_or_exists_put_of_run (fonts : FontCache) (resources : String)
    (job : AssetJob) (t : FileTree) (device : Device) :
    (job.run fonts resources t device).2 = t ∨
    ∃ content, Path.ending (job.target resources) = .name ∧
      (job.run fonts resources t device).2 =
        t.put (job.targetPlace resources t.workDir) (.file content) := by
  unfold run
  split
  · exact .inl rfl
  have hput : (t.copy (job.source fonts) (job.target resources) device).2 = t ∨
      ∃ content, Path.ending (job.target resources) = .name ∧
        (t.copy (job.source fonts) (job.target resources) device).2 =
          t.put (job.targetPlace resources t.workDir) (.file content) := by
    refine (t.eq_or_exists_put_of_copy _ _ device).imp_right ?_
    rintro ⟨place, content, hwritten, hcopy⟩
    obtain ⟨target, hfollow, hending, -, -⟩ := FileTree.writable_eq_ok_iff.1 hwritten
    refine ⟨content, hending ▸ (FileTree.follow_eq_ok_iff.1 hfollow).2.2, ?_⟩
    rw [hcopy, FileTree.writable_eq_ok hwritten]
    rfl
  split <;> next hcopy => rwa [hcopy] at hput

/-- Copies put files, and these where they go. -/
theorem exists_copies_of_settle (fonts : FontCache) (resources : String) (jobs : List AssetJob)
    (t : FileTree) (device : Device) :
    ∃ copies, (settle fonts resources jobs t device).2 =
        t.putAll (copyEntries resources t.workDir copies) ∧
      ∀ copy ∈ copies, copy.1 ∈ jobs ∧ Path.ending (copy.1.target resources) = .name := by
  induction jobs generalizing t with
  | nil => exact ⟨[], rfl, by simp⟩
  | cons job jobs ih =>
    have hrun := job.eq_or_exists_put_of_run fonts resources t device
    obtain ⟨copies, htree, hcopies⟩ := ih (job.run fonts resources t device).2
    have hrest : ∀ copy ∈ copies,
        copy.1 ∈ job :: jobs ∧ Path.ending (copy.1.target resources) = .name :=
      fun copy hcopy => ⟨List.mem_cons_of_mem _ (hcopies copy hcopy).1, (hcopies copy hcopy).2⟩
    rcases hrun with hsame | ⟨content, hending, hput⟩
    · refine ⟨copies, ?_, hrest⟩
      rw [settle_cons_snd, htree, hsame]
    · refine ⟨(job, content) :: copies, ?_, List.forall_mem_cons.2 ⟨⟨by simp, hending⟩, hrest⟩⟩
      rw [settle_cons_snd, htree, hput]
      rfl

/-- Copies of which none fails are those of a device that never fails. -/
theorem settle_eq_of_not_failed
    (h : ∀ pair ∈ (settle fonts resources jobs t device).1, ∀ fault, pair.2 ≠ .failed fault) :
    settle fonts resources jobs t device = settle fonts resources jobs t := by
  induction jobs generalizing t with
  | nil => rfl
  | cons job jobs ih =>
    simp only [settle, List.forall_mem_cons] at h ⊢
    have hrun := AssetJob.run_eq_of_not_failed h.1
    rw [hrun] at h ⊢
    rw [ih h.2]

/-- Copies that all succeed are those of a device that never fails. -/
theorem copyAssets_eq_of_ok {plan : AssetPlan} {report : AssetReport} {u : FileTree}
    (h : copyAssets plan fonts resources t device = (.ok report, u)) :
    copyAssets plan fonts resources t = (.ok report, u) := by
  obtain ⟨hreport, -⟩ := Prod.mk.inj h
  have hsettle := settle_eq_of_not_failed (ofOutcomes_eq_ok hreport).1
  rw [← h, copyAssets, copyAssets, hsettle]

end Device

end WidgetSkin
