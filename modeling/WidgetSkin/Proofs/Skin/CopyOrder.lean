import WidgetSkin.Proofs.FileTree.ListingOrder
import WidgetSkin.Proofs.Skin.CopyStep

/-!
# Copies in any order

The copies of a plan can be made in any order. The same copies succeed, the same files come to
stand in the same places, and the report or the fault is the one that the order of the plan gives.
Only the reason that the system has for a failure can depend on the order of the copies: an image
can be looked for through a place that another copy fills. The device is one that never fails, so
that copies fail on account of their sources and targets alone.

## Main definitions

* `copyAssetsInOrder` — the copies of a plan in an order of one's own.
* `AssetPlan.report` — the report of a plan of which no copy fails.
* `Settled` — what has become of a plan when all its copies have been tried.

## Main statements

* `AssetPlan.Ready.settle_snd` — the files that copies add, in whatever order.
* `ofOutcomes_of_no_failure`, `findSome?_fault?_eq_some` — the report, and the first fault.
* `copyAssets_in_any_order` — all orders of the copies come to the same.
-/

namespace WidgetSkin

variable {fonts : FontCache} {resources : String} {t u : FileTree} {plan : AssetPlan}
  {jobs order : List AssetJob} {outcomes : List (AssetJob × AssetOutcome)}

/-! ## An order of one's own -/

/-- The outcomes of a plan, in the order of the plan. -/
def AssetPlan.gather (plan : AssetPlan) (outcomes : List (AssetJob × AssetOutcome)) :
    List (AssetJob × AssetOutcome) :=
  plan.jobs.filterMap fun job => outcomes.find? (·.1 = job)

/-- Copy the assets of a plan in an order of one's own. The report is put together in the order of
the plan all the same. -/
def copyAssetsInOrder (order : List AssetJob) (plan : AssetPlan) (fonts : FontCache)
    (resources : String) (t : FileTree) : Except Fault AssetReport × FileTree :=
  let (outcomes, t) := settle fonts resources order t
  (AssetReport.ofOutcomes resources (plan.gather outcomes), t)

namespace AssetPlan

theorem mem_of_mem_gather {pair : AssetJob × AssetOutcome} (h : pair ∈ plan.gather outcomes) :
    pair ∈ outcomes := by
  obtain ⟨job, -, hfind⟩ := List.mem_filterMap.1 h
  exact List.mem_of_find?_eq_some hfind

/-- If every copy has an outcome, the outcomes are gathered in the order of the plan. -/
theorem map_fst_gather (h : ∀ job ∈ plan.jobs, job ∈ outcomes.map Prod.fst) :
    (plan.gather outcomes).map Prod.fst = plan.jobs := by
  have hfound : ∀ job ∈ plan.jobs, (outcomes.find? (·.1 = job)).map Prod.fst = some job := by
    intro job hjob
    obtain ⟨pair, hpair, rfl⟩ := List.mem_map.1 (h job hjob)
    obtain ⟨found, hfind⟩ := Option.isSome_iff_exists.1
      (List.find?_isSome (p := fun other => decide (other.1 = pair.1)).2 ⟨pair, hpair, by simp⟩)
    rw [hfind]
    simpa using List.find?_some hfind
  rw [gather, List.map_filterMap, List.filterMap_congr hfound, List.filterMap_some]

theorem gather_eq_self (hnodup : plan.jobs.Nodup) (h : outcomes.map Prod.fst = plan.jobs) :
    plan.gather outcomes = outcomes := by
  rw [gather, ← h]
  exact filterMap_find?_map_key (h ▸ hnodup) fun _ => id

end AssetPlan

/-- The copies are made in the order of the plan. -/
theorem copyAssets_eq_inOrder (fonts : FontCache) (resources : String) (t : FileTree)
    (h : plan.fonts.Nodup) :
    copyAssets plan fonts resources t = copyAssetsInOrder plan.jobs plan fonts resources t := by
  have hgather := AssetPlan.gather_eq_self (AssetPlan.nodup_jobs h)
    (map_fst_settle fonts resources plan.jobs t)
  simp only [copyAssets, copyAssetsInOrder, hgather]

/-! ## All copies -/

namespace AssetPlan

/-- Every copy is tried, with files at some of the places where copies go. -/
theorem exists_of_mem_settle (hjobs : jobs ⊆ plan.jobs)
    (hu : FileTree.FilledAt (plan.targetPlaces resources t.workDir) t u)
    {pair : AssetJob × AssetOutcome} (hpair : pair ∈ (settle fonts resources jobs u).1) :
    pair.1 ∈ plan.jobs ∧ ∃ v, FileTree.FilledAt (plan.targetPlaces resources t.workDir) t v ∧
      pair.2 = (pair.1.run fonts resources v).1 := by
  induction jobs generalizing u with
  | nil => cases hpair
  | cons job jobs ih =>
    rw [List.cons_subset] at hjobs
    rcases List.mem_cons.1 hpair with rfl | hpair
    · exact ⟨hjobs.1, u, hu, rfl⟩
    · exact ih hjobs.2 (filledAt_run hjobs.1 hu) hpair

namespace Ready

/-- Copies add their files, in whatever order. -/
theorem settle_snd (h : plan.Ready fonts resources t) (hjobs : jobs ⊆ plan.jobs)
    (hu : FileTree.FilledAt (plan.targetPlaces resources t.workDir) t u) :
    (settle fonts resources jobs u).2 =
      u.putAll (jobs.filterMap (·.addition? fonts resources t)) := by
  -- on the way, files have only come to stand where copies of the plan go
  induction jobs generalizing u with
  | nil => rfl
  | cons job jobs ih =>
    rw [List.cons_subset] at hjobs
    have hentries : (job :: jobs).filterMap (·.addition? fonts resources t) =
        (job.addition? fonts resources t).toList ++
          jobs.filterMap (·.addition? fonts resources t) := by
      rw [List.filterMap_cons]
      cases job.addition? fonts resources t <;> rfl
    rw [hentries, FileTree.putAll_append, ← h.run_snd hjobs.1 hu]
    exact ih hjobs.2 (filledAt_run hjobs.1 hu)

/-- No two files that copies add share a place. -/
theorem nodup_places (h : plan.Ready fonts resources t) :
    ((plan.jobs.filterMap (·.addition? fonts resources t)).map Prod.fst).Nodup := by
  rw [List.Nodup, List.pairwise_map, List.pairwise_filterMap]
  refine (nodup_jobs h.nodup_fonts).imp_of_mem
    fun hjob hother hne first hfirst second hsecond heq => hne (h.targetPlace_inj hjob hother ?_)
  obtain ⟨-, -, htarget⟩ := AssetJob.addition?_eq_some_iff.1 hfirst
  obtain ⟨-, -, htarget'⟩ := AssetJob.addition?_eq_some_iff.1 hsecond
  rw [htarget, htarget', heq]

end Ready

end AssetPlan

/-! ## The report -/

/-- The report of a plan of which no copy fails. -/
def AssetPlan.report (plan : AssetPlan) (fonts : FontCache) (resources : String) (t : FileTree) :
    AssetReport where
  fontsCopied := plan.fonts.filter fun f => t.isFile (fonts.sourcePath f)
  fontsSkipped := plan.fonts.filter fun f => !t.isFile (fonts.sourcePath f)
  imagesCopied := (List.range plan.images.length).map fun k =>
    Path.join (Path.join resources imagesDirectory) (imageFileName k)

theorem AssetJob.filterMap_imageTarget?_font (resources : String) (fileNames : List String) :
    (fileNames.map font).filterMap (imageTarget? resources) = [] := by
  simp [imageTarget?]

theorem AssetJob.filterMap_imageTarget?_image (resources : String) (sources : List String) :
    (sources.mapIdx image).filterMap (imageTarget? resources) =
      (List.range sources.length).map fun k =>
        Path.join (Path.join resources imagesDirectory) (imageFileName k) := by
  have htargets : ∀ job ∈ sources.mapIdx image,
      imageTarget? resources job = some (job.target resources) := by
    intro job hjob
    obtain ⟨index, hindex, rfl⟩ := List.mem_mapIdx.1 hjob
    rfl
  rw [List.filterMap_congr htargets, List.filterMap_eq_map']
  exact List.ext_getElem (by simp) (by simp [target])

/-- If what is left out are the missing fonts and nothing fails, the report is that of the plan. -/
theorem ofOutcomes_of_no_failure (plan : AssetPlan) (fonts : FontCache) (resources : String)
    (t : FileTree) :
    AssetReport.ofOutcomes resources (plan.jobs.map fun job =>
      (job, if job.isMissingFont fonts t then .skipped else .copied)) =
      .ok (plan.report fonts resources t) := by
  have hnone : (plan.jobs.map fun job => (job, if job.isMissingFont fonts t then
      AssetOutcome.skipped else .copied)).findSome? (·.2.fault?) = none := by
    refine List.findSome?_eq_none_iff.2 fun pair hpair => ?_
    obtain ⟨job, -, rfl⟩ := List.mem_map.1 hpair
    cases job.isMissingFont fonts t <;> rfl
  rw [ofOutcomes_eq, hnone]
  simp only [jobsWith_copied, jobsWith_skipped, plan.filter_not_isMissingFont,
    plan.filter_isMissingFont, List.filterMap_append, AssetJob.filterMap_fontName?_font,
    AssetJob.filterMap_fontName?_image, AssetJob.filterMap_imageTarget?_font,
    AssetJob.filterMap_imageTarget?_image, List.append_nil, List.nil_append]
  rfl

/-- The first outcome that is a failure belongs to the first copy that fails. -/
theorem findSome?_fault?_eq_some {job : AssetJob}
    (hsame : ∀ pair ∈ outcomes,
      pair.1.SameUpToReason fonts resources pair.2 (pair.1.run fonts resources t).1)
    (hfirst : (outcomes.map Prod.fst).find? (·.fails fonts resources t) = some job) :
    ∃ reason, outcomes.findSome? (·.2.fault?) = some (job.fault fonts resources reason) := by
  induction outcomes with
  | nil => cases hfirst
  | cons pair outcomes ih =>
    rw [List.forall_mem_cons] at hsame
    have hfails : pair.2.fault?.isSome = pair.1.fails fonts resources t :=
      hsame.1.isSome_fault?
    rw [List.map_cons, List.find?_cons, ← hfails] at hfirst
    rw [List.findSome?_cons]
    cases hfault : pair.2.fault? with
    | none =>
      rw [hfault] at hfirst
      exact ih hsame.2 hfirst
    | some fault =>
      rw [hfault] at hfirst
      obtain rfl : pair.1 = job := Option.some.inj hfirst
      obtain ⟨reason, rfl⟩ := hsame.1.exists_fault hfault
      exact ⟨reason, rfl⟩

/-- Outcomes that are told by the copies are known from the copies. -/
theorem eq_map_of_forall {outcomeOf : AssetJob → AssetOutcome}
    (h : ∀ pair ∈ outcomes, pair.2 = outcomeOf pair.1) :
    outcomes = (outcomes.map Prod.fst).map fun job => (job, outcomeOf job) := by
  rw [List.map_map]
  exact (List.map_id' outcomes).symm.trans
    (List.map_congr_left fun pair hpair => Prod.ext rfl (h pair hpair))

/-! ## All orders -/

namespace AssetPlan

theorem map_fst_gather_settle (fonts : FontCache) (resources : String) (t : FileTree)
    (horder : order.Perm plan.jobs) :
    (plan.gather (settle fonts resources order t).1).map Prod.fst = plan.jobs := by
  refine map_fst_gather fun job hjob => ?_
  rw [map_fst_settle]
  exact horder.mem_iff.2 hjob

namespace Ready

variable (h : plan.Ready fonts resources t) (horder : order.Perm plan.jobs)

include h horder

theorem sameUpToReason_of_mem_settle {pair : AssetJob × AssetOutcome}
    (hpair : pair ∈ (settle fonts resources order t).1) :
    pair.1.SameUpToReason fonts resources pair.2 (pair.1.run fonts resources t).1 := by
  obtain ⟨hjob, u, hu, houtcome⟩ := exists_of_mem_settle horder.subset (.refl _ t) hpair
  rw [houtcome]
  exact h.sameUpToReason_run hjob hu

/-- If no copy fails, the report is that of the plan. -/
theorem fst_of_find?_eq_none
    (hnone : plan.jobs.find? (·.fails fonts resources t) = none) :
    (copyAssetsInOrder order plan fonts resources t).1 = .ok (plan.report fonts resources t) := by
  have hgather : plan.gather (settle fonts resources order t).1 = plan.jobs.map fun job =>
      (job, if job.isMissingFont fonts t then .skipped else .copied) := by
    rw [← map_fst_gather_settle fonts resources t horder]
    refine eq_map_of_forall fun pair hpair => ?_
    refine (h.sameUpToReason_of_mem_settle horder (mem_of_mem_gather hpair)).eq_of_not_fails ?_
    have hjob : pair.1 ∈ plan.jobs :=
      map_fst_gather_settle fonts resources t horder ▸ List.mem_map_of_mem hpair
    simpa using List.find?_eq_none.1 hnone pair.1 hjob
  exact (congrArg (AssetReport.ofOutcomes resources) hgather).trans
    (ofOutcomes_of_no_failure plan fonts resources t)

/-- The fault is that of the first copy in the plan that fails. -/
theorem fst_of_find?_eq_some {job : AssetJob}
    (hfirst : plan.jobs.find? (·.fails fonts resources t) = some job) :
    ∃ reason, (copyAssetsInOrder order plan fonts resources t).1 =
      .error (job.fault fonts resources reason) := by
  rw [← map_fst_gather_settle fonts resources t horder] at hfirst
  obtain ⟨reason, hreason⟩ := findSome?_fault?_eq_some
    (fun pair hpair => h.sameUpToReason_of_mem_settle horder (mem_of_mem_gather hpair)) hfirst
  refine ⟨reason, ?_⟩
  rw [copyAssetsInOrder]
  exact (ofOutcomes_eq _ _).trans (by rw [hreason])

/-- If images are looked for around the places that copies fill, every order gives the value that
the order of the plan gives. -/
theorem fst_eq (hplan : plan.LeadsAround resources t) :
    (copyAssetsInOrder order plan fonts resources t).1 =
      AssetReport.ofOutcomes resources
        (plan.jobs.map fun job => (job, (job.run fonts resources t).1)) := by
  have hgather : plan.gather (settle fonts resources order t).1 =
      plan.jobs.map fun job => (job, (job.run fonts resources t).1) := by
    rw [← map_fst_gather_settle fonts resources t horder]
    refine eq_map_of_forall fun pair hpair => ?_
    obtain ⟨hjob, u, hu, houtcome⟩ :=
      exists_of_mem_settle horder.subset (.refl _ t) (mem_of_mem_gather hpair)
    rw [houtcome]
    exact h.run_fst_eq hjob hu hplan
  exact congrArg (AssetReport.ofOutcomes resources) hgather

/-! ### The files -/

theorem snd_eq : (copyAssetsInOrder order plan fonts resources t).2 =
    t.putAll (order.filterMap (·.addition? fonts resources t)) :=
  h.settle_snd horder.subset (.refl _ t)

/-- Every order leaves the same files. -/
theorem sameFiles : (copyAssetsInOrder plan.jobs plan fonts resources t).2.SameFiles
    (copyAssetsInOrder order plan fonts resources t).2 := by
  rw [h.snd_eq horder, h.snd_eq (.refl _)]
  exact FileTree.sameFiles_putAll_of_perm t (horder.filterMap _) h.nodup_places

/-- A copy that can be made is made. -/
theorem exists_node?_target {job : AssetJob} (hjob : job ∈ plan.jobs)
    (hcopied : (job.run fonts resources t).1 = .copied) :
    ∃ content, t.node? (job.sourcePlace fonts t.workDir) = some (.file content) ∧
      (copyAssetsInOrder order plan fonts resources t).2.node?
        (job.targetPlace resources t.workDir) = some (.file content) := by
  obtain ⟨content, hnode, -⟩ := h.exists_content hjob (.refl _ t) hcopied
  refine ⟨content, hnode, ?_⟩
  obtain ⟨kind, name, -, htarget⟩ := h.targetPlace_eq_append hjob
  rw [h.snd_eq horder]
  refine FileTree.node?_putAll_of_mem (by simp [htarget]) (fun node hmem => ?_)
    (List.mem_filterMap.2 ⟨job, horder.mem_iff.2 hjob,
      AssetJob.addition?_eq_some_iff.2 ⟨hcopied, hnode, rfl⟩⟩)
  obtain ⟨other, hother, hentry⟩ := List.mem_filterMap.1 hmem
  obtain ⟨-, hsource, hplace⟩ := AssetJob.addition?_eq_some_iff.1 hentry
  obtain rfl := h.targetPlace_inj (horder.mem_iff.1 hother) hjob hplace
  exact Option.some.inj (hsource.symm.trans hnode)

/-- Copies change nothing but the places of those that are made. -/
theorem node?_of_forall_ne {place : Location}
    (hplace : ∀ job ∈ plan.jobs, (job.run fonts resources t).1 = .copied →
      job.targetPlace resources t.workDir ≠ place) :
    (copyAssetsInOrder order plan fonts resources t).2.node? place = t.node? place := by
  rw [h.snd_eq horder]
  refine FileTree.node?_putAll_of_notMem fun hmem => ?_
  obtain ⟨⟨_, node⟩, hentry, rfl⟩ := List.mem_map.1 hmem
  obtain ⟨job, hjob, heq⟩ := List.mem_filterMap.1 hentry
  obtain ⟨hcopied, -, htarget⟩ := AssetJob.addition?_eq_some_iff.1 heq
  exact hplace job (horder.mem_iff.1 hjob) hcopied htarget

end Ready

end AssetPlan

/-! ## What has become of a plan -/

/-- What has become of a plan when all its copies have been tried in some order. -/
structure Settled (order : List AssetJob) (plan : AssetPlan) (fonts : FontCache)
    (resources : String) (t : FileTree) : Prop where
  /-- Every copy has been tried, and has come out as it would without the others. -/
  attempted : ∀ job ∈ plan.jobs, ∃ outcome,
    (job, outcome) ∈ (settle fonts resources order t).1 ∧
    job.SameUpToReason fonts resources outcome (job.run fonts resources t).1
  /-- What can be copied has been copied, whatever has become of other copies. -/
  copied : ∀ job ∈ plan.jobs, (job.run fonts resources t).1 = .copied →
    ∃ content, t.node? (job.sourcePlace fonts t.workDir) = some (.file content) ∧
      (copyAssetsInOrder order plan fonts resources t).2.node?
        (job.targetPlace resources t.workDir) = some (.file content)
  kept : ∀ place, (∀ job ∈ plan.jobs, (job.run fonts resources t).1 = .copied →
      job.targetPlace resources t.workDir ≠ place) →
    (copyAssetsInOrder order plan fonts resources t).2.node? place = t.node? place
  isOk_iff : (copyAssetsInOrder order plan fonts resources t).1.isOk = true ↔
    ∀ job ∈ plan.jobs, job.fails fonts resources t = false
  report_eq : ∀ report, (copyAssetsInOrder order plan fonts resources t).1 = .ok report →
    report = plan.report fonts resources t
  /-- The fault is that of the first copy in the plan that fails. -/
  fault_eq : ∀ fault, (copyAssetsInOrder order plan fonts resources t).1 = .error fault →
    ∃ job reason, plan.jobs.find? (·.fails fonts resources t) = some job ∧
      fault = job.fault fonts resources reason

/-- Two values of the same copies that differ at most in why a copy failed. -/
inductive AssetReport.SameUpToReason (fonts : FontCache) (resources : String) :
    Except Fault AssetReport → Except Fault AssetReport → Prop
  | same (value : Except Fault AssetReport) : SameUpToReason fonts resources value value
  | failed (job : AssetJob) (reason other : SystemError) : SameUpToReason fonts resources
      (.error (job.fault fonts resources reason)) (.error (job.fault fonts resources other))

namespace AssetPlan.Ready

variable (h : plan.Ready fonts resources t) (horder : order.Perm plan.jobs)

include h horder

/-- The value is the report of the plan, or the fault of the first copy that fails. -/
theorem fst_cases :
    (plan.jobs.find? (·.fails fonts resources t) = none ∧
      (copyAssetsInOrder order plan fonts resources t).1 =
        .ok (plan.report fonts resources t)) ∨
    ∃ job reason, plan.jobs.find? (·.fails fonts resources t) = some job ∧
      (copyAssetsInOrder order plan fonts resources t).1 =
        .error (job.fault fonts resources reason) := by
  cases hfirst : plan.jobs.find? (·.fails fonts resources t) with
  | none => exact .inl ⟨rfl, h.fst_of_find?_eq_none horder hfirst⟩
  | some job =>
    obtain ⟨reason, hreason⟩ := h.fst_of_find?_eq_some horder hfirst
    exact .inr ⟨job, reason, rfl, hreason⟩

/-- What copies in some order come to. -/
theorem settled : Settled order plan fonts resources t where
  attempted job hjob := by
    have hmem : job ∈ (settle fonts resources order t).1.map Prod.fst := by
      rw [map_fst_settle]
      exact horder.mem_iff.2 hjob
    obtain ⟨⟨_, outcome⟩, hpair, rfl⟩ := List.mem_map.1 hmem
    exact ⟨outcome, hpair, h.sameUpToReason_of_mem_settle horder hpair⟩
  copied job hjob := h.exists_node?_target horder hjob
  kept place := h.node?_of_forall_ne horder
  isOk_iff := by
    have hnone : plan.jobs.find? (·.fails fonts resources t) = none ↔
        ∀ job ∈ plan.jobs, job.fails fonts resources t = false := by
      simp
    rw [← hnone]
    rcases h.fst_cases horder with ⟨hfirst, hvalue⟩ | ⟨job, reason, hfirst, hvalue⟩
    · simp [hfirst, hvalue, Except.isOk, Except.toBool]
    · simp [hfirst, hvalue, Except.isOk, Except.toBool]
  report_eq report hreport := by
    rcases h.fst_cases horder with ⟨-, hvalue⟩ | ⟨job, reason, -, hvalue⟩
    · exact Except.ok.inj (hreport.symm.trans hvalue)
    · cases hreport.symm.trans hvalue
  fault_eq fault hfault := by
    rcases h.fst_cases horder with ⟨-, hvalue⟩ | ⟨job, reason, hfirst, hvalue⟩
    · cases hfault.symm.trans hvalue
    · exact ⟨job, reason, hfirst, Except.error.inj (hfault.symm.trans hvalue)⟩

/-- Every order gives the same value up to the reason of a failure. -/
theorem sameUpToReason_fst : AssetReport.SameUpToReason fonts resources
    (copyAssetsInOrder order plan fonts resources t).1
    (copyAssetsInOrder plan.jobs plan fonts resources t).1 := by
  rcases h.fst_cases horder with ⟨hfirst, hvalue⟩ | ⟨job, reason, hfirst, hvalue⟩ <;>
    rcases h.fst_cases (.refl _) with ⟨hfirst', hvalue'⟩ | ⟨job', reason', hfirst', hvalue'⟩
  · rw [hvalue, hvalue']
    exact .same _
  · simp [hfirst] at hfirst'
  · simp [hfirst] at hfirst'
  · obtain rfl : job = job' := Option.some.inj (hfirst.symm.trans hfirst')
    rw [hvalue, hvalue']
    exact .failed job reason reason'

end AssetPlan.Ready

/-- The copies of a plan come to the same in every order: each is tried whatever becomes of the
others, those that can be made are made, and the report or the fault is told by the plan. The
reason that the system has for a failure can depend on the order, but not if images are looked for
around the places that copies fill. -/
theorem copyAssets_in_any_order (h : plan.Ready fonts resources t)
    (horder : order.Perm plan.jobs) :
    Settled order plan fonts resources t ∧
    copyAssets plan fonts resources t = copyAssetsInOrder plan.jobs plan fonts resources t ∧
    (copyAssets plan fonts resources t).2.SameFiles
      (copyAssetsInOrder order plan fonts resources t).2 ∧
    AssetReport.SameUpToReason fonts resources
      (copyAssetsInOrder order plan fonts resources t).1
      (copyAssets plan fonts resources t).1 ∧
    (plan.LeadsAround resources t →
      (copyAssetsInOrder order plan fonts resources t).1 =
        (copyAssets plan fonts resources t).1) := by
  rw [copyAssets_eq_inOrder fonts resources t h.nodup_fonts]
  refine ⟨h.settled horder, rfl, h.sameFiles horder, h.sameUpToReason_fst horder, fun hleads => ?_⟩
  rw [h.fst_eq horder hleads, h.fst_eq (.refl _) hleads]

/-- A font, a picture, and the directories for copies. -/
def copyTree : FileTree where
  entries :=
    [(["fonts"], .directory), (["fonts", "a.ttf"], .file ⟨#[65]⟩), (["pic.png"], .file ⟨#[80]⟩),
      (["res"], .directory), (["res", "Fonts"], .directory), (["res", "Images"], .directory)]
  workDir := []

/-- A font and a picture that are there, and a font and a picture that are not. -/
def halfPlan : AssetPlan where
  fonts := ["a.ttf", "b.ttf"]
  images := ["gone.png", "pic.png"]

/-- Copied from the last to the first, the picture behind one that fails is there, and the fault is
that of the first picture. -/
theorem copyAssets_in_any_order_of_halfPlan :
    halfPlan.Ready ⟨"fonts", []⟩ "res" copyTree ∧ halfPlan.LeadsAround "res" copyTree ∧
    halfPlan.jobs.reverse.Perm halfPlan.jobs ∧
    (copyAssetsInOrder halfPlan.jobs.reverse halfPlan ⟨"fonts", []⟩ "res" copyTree).1 =
      .error (.asset "gone.png" (.copyFailed "res/Images/0.png" .notFound)) ∧
    (copyAssetsInOrder halfPlan.jobs.reverse halfPlan ⟨"fonts", []⟩ "res" copyTree).2.node?
      ["res", "Images", "1.png"] = some (.file ⟨#[80]⟩) := by
  have hready : halfPlan.Ready ⟨"fonts", []⟩ "res" copyTree :=
    ⟨by decide +kernel, by decide, by decide +kernel, by decide +kernel, by decide +kernel⟩
  have hleads : halfPlan.LeadsAround "res" copyTree := by
    unfold AssetPlan.LeadsAround
    decide +kernel
  have horder : halfPlan.jobs.reverse.Perm halfPlan.jobs := List.reverse_perm _
  obtain ⟨-, -, hfiles, -, hvalue⟩ := copyAssets_in_any_order hready horder
  refine ⟨hready, hleads, horder, ?_, ?_⟩
  · rw [hvalue hleads]
    decide +kernel
  · rw [hfiles.node?_eq]
    decide +kernel

/-- A picture that is looked for through where a font goes. -/
def throughFont : AssetPlan where
  fonts := ["a.ttf"]
  images := ["fonts/../res/Fonts/a.ttf/../../../pic.png"]

/-- A picture that is looked for through where another picture goes. -/
def throughImage : AssetPlan where
  images := ["pic.png", "fonts/../res/Images/0.png/../../../pic.png"]

/-- Images need not be looked for around the places that copies fill: then the reason of a failure
tells whether the copy came before or behind the other one. -/
theorem reason_depends_on_order :
    (throughFont.Ready ⟨"fonts", []⟩ "res" copyTree ∧
      throughFont.jobs.reverse.Perm throughFont.jobs ∧
      (copyAssets throughFont ⟨"fonts", []⟩ "res" copyTree).1 =
        .error (.asset "fonts/../res/Fonts/a.ttf/../../../pic.png"
          (.copyFailed "res/Images/0.png" .notDirectory)) ∧
      (copyAssetsInOrder throughFont.jobs.reverse throughFont ⟨"fonts", []⟩ "res" copyTree).1 =
        .error (.asset "fonts/../res/Fonts/a.ttf/../../../pic.png"
          (.copyFailed "res/Images/0.png" .notFound))) ∧
    throughImage.Ready ⟨"fonts", []⟩ "res" copyTree ∧
      throughImage.jobs.reverse.Perm throughImage.jobs ∧
      (copyAssets throughImage ⟨"fonts", []⟩ "res" copyTree).1 =
        .error (.asset "fonts/../res/Images/0.png/../../../pic.png"
          (.copyFailed "res/Images/1.png" .notDirectory)) ∧
      (copyAssetsInOrder throughImage.jobs.reverse throughImage ⟨"fonts", []⟩ "res" copyTree).1 =
        .error (.asset "fonts/../res/Images/0.png/../../../pic.png"
          (.copyFailed "res/Images/1.png" .notFound)) := by
  have hfont : throughFont.Ready ⟨"fonts", []⟩ "res" copyTree :=
    ⟨by decide +kernel, by decide, by decide +kernel, by decide +kernel, by decide +kernel⟩
  have himage : throughImage.Ready ⟨"fonts", []⟩ "res" copyTree :=
    ⟨by decide +kernel, by decide, by decide +kernel, by decide +kernel, by decide +kernel⟩
  exact ⟨⟨hfont, List.reverse_perm _, by decide +kernel, by decide +kernel⟩,
    himage, List.reverse_perm _, by decide +kernel, by decide +kernel⟩

end WidgetSkin
