import WidgetSkin.Proofs.Skin.ExportRun

/-!
# Places in a skin directory

Where the directories, fonts and images of a skin stand, seen from the place of its own
directory. Planned fonts that have plain names stand among the fonts under exactly these names,
and no two copies share a place.

## Main definitions

* `skinDirectories` — the places of the directories of a skin.
* `AssetJob.placeIn`, `copyFiles` — the place of a copy, and the files of several copies.

## Main statements

* `AssetJob.exists_targetPlace` — a copy goes into the directory for its kind.
* `AssetJob.targetPlace_eq` — a copy that can be made goes to its place.
* `AssetJob.placeIn_inj` — different places for different copies.
-/

namespace WidgetSkin

/-- The places of the directories of a skin that stands at `top`. -/
def skinDirectories (top : Location) : List Location :=
  [top, top ++ [resourcesDirectory], top ++ [resourcesDirectory, fontsDirectory],
    top ++ [resourcesDirectory, imagesDirectory]]

/-- The place of a copy in a skin that stands at `top`. -/
def AssetJob.placeIn (top : Location) : AssetJob → Location
  | font fileName => top ++ [resourcesDirectory, fontsDirectory, fileName]
  | image index _ => top ++ [resourcesDirectory, imagesDirectory, imageFileName index]

/-- The files that copies add to a skin that stands at `top`. -/
def copyFiles (top : Location) (copies : List (AssetJob × ByteArray)) : List (Location × Node) :=
  copies.map fun copy => (copy.1.placeIn top, .file copy.2)

variable {directory top : Location} {skinDirectory : String} {plan : AssetPlan} {job : AssetJob}

theorem prefix_of_mem_skinDirectories {place : Location} (h : place ∈ skinDirectories top) :
    top <+: place := by
  simp only [skinDirectories, List.mem_cons, List.not_mem_nil, or_false] at h
  rcases h with rfl | rfl | rfl | rfl
  · exact List.prefix_rfl
  all_goals exact List.prefix_append _ _

theorem resolve_resourcesDirectory (directory : Location) :
    Path.resolve directory resourcesDirectory = directory ++ [resourcesDirectory] :=
  Path.resolve_of_components_eq_name directory (by decide)

theorem resolve_fontsDirectory (directory : Location) :
    Path.resolve directory fontsDirectory = directory ++ [fontsDirectory] :=
  Path.resolve_of_components_eq_name directory (by decide)

theorem resolve_imagesDirectory (directory : Location) :
    Path.resolve directory imagesDirectory = directory ++ [imagesDirectory] :=
  Path.resolve_of_components_eq_name directory (by decide)

theorem map_resolve_skinPaths (directory : Location) (skinDirectory : String) :
    (skinPaths skinDirectory).map (Path.resolve directory) =
      skinDirectories (Path.resolve directory skinDirectory) := by
  simp [skinPaths, skinDirectories, resolve_resourcesDirectory, resolve_fontsDirectory,
    resolve_imagesDirectory]

namespace AssetJob

theorem prefix_placeIn (top : Location) (job : AssetJob) : top <+: job.placeIn top := by
  cases job <;> exact List.prefix_append _ _

theorem placeIn_notMem_skinDirectories (top : Location) (job : AssetJob) :
    job.placeIn top ∉ skinDirectories top := by
  cases job <;> simp [placeIn, skinDirectories]

theorem placeIn_ne (top : Location) (job : AssetJob) (name : String) :
    job.placeIn top ≠ top ++ [name] := by
  cases job <;> simp [placeIn]

/-- A copy of a planned asset goes into the directory for its kind, under a plain name. -/
theorem exists_targetPlace (hfonts : ∀ f ∈ plan.fonts, Path.isSingleName f = true)
    (hjob : job ∈ plan.jobs) (directory : Location) (skinDirectory : String) :
    ∃ kind name, job.targetPlace (Path.join skinDirectory resourcesDirectory) directory =
      Path.resolve directory skinDirectory ++ [resourcesDirectory, kind, name] := by
  rcases AssetPlan.mem_jobs_iff.1 hjob with ⟨fileName, hplanned, rfl⟩ | ⟨index, _, rfl⟩
  · obtain ⟨name, hname⟩ := Path.isSingleName_iff.1 (hfonts fileName hplanned)
    exact ⟨fontsDirectory, name, by
      simp [targetPlace, target, resolve_resourcesDirectory, resolve_fontsDirectory,
        Path.resolve_of_components_eq_name _ hname]⟩
  · exact ⟨imagesDirectory, imageFileName index, by
      simp [targetPlace, target, resolve_resourcesDirectory, resolve_imagesDirectory,
        Path.resolve_of_components_eq_name _ (components_imageFileName index)]⟩

/-- A copy that goes where a file can stand goes to its place. -/
theorem targetPlace_eq (hfonts : ∀ f ∈ plan.fonts, Path.isSingleName f = true)
    (hjob : job ∈ plan.jobs)
    (hending : Path.ending (job.target (Path.join skinDirectory resourcesDirectory)) = .name) :
    job.targetPlace (Path.join skinDirectory resourcesDirectory) directory =
      job.placeIn (Path.resolve directory skinDirectory) := by
  rcases AssetPlan.mem_jobs_iff.1 hjob with ⟨fileName, hplanned, rfl⟩ | ⟨index, _, rfl⟩
  · obtain ⟨name, hname⟩ := Path.isSingleName_iff.1 (hfonts fileName hplanned)
    rw [target, Path.ending_join (Path.isAbsolute_of_components_eq_name hname)
      (Path.steps_ne_nil_of_components_eq_name hname)] at hending
    obtain rfl := Path.eq_of_components_eq_name hname hending
    simp [targetPlace, target, placeIn, resolve_resourcesDirectory, resolve_fontsDirectory,
      Path.resolve_of_components_eq_name _ hname]
  · simp [targetPlace, target, placeIn, resolve_resourcesDirectory, resolve_imagesDirectory,
      Path.resolve_of_components_eq_name _ (components_imageFileName index)]

theorem imageFileName_inj {m n : Nat} (h : imageFileName m = imageFileName n) : m = n := by
  have hdigits : m.repr.toList ++ ".png".toList = n.repr.toList ++ ".png".toList := by
    simpa [imageFileName] using congrArg String.toList h
  exact Text.eq_of_repr_eq (String.toList_inj.1 (List.append_cancel_right hdigits))

/-- No two copies of a plan share a place. -/
theorem placeIn_inj {other : AssetJob} (hjob : job ∈ plan.jobs) (hother : other ∈ plan.jobs)
    (h : job.placeIn top = other.placeIn top) : job = other := by
  have hkinds : fontsDirectory ≠ imagesDirectory := by decide
  rcases AssetPlan.mem_jobs_iff.1 hjob with ⟨_, -, rfl⟩ | ⟨index, hindex, rfl⟩ <;>
    rcases AssetPlan.mem_jobs_iff.1 hother with ⟨_, -, rfl⟩ | ⟨index', hindex', rfl⟩
  · simpa [placeIn] using h
  · simp [placeIn, hkinds] at h
  · simp [placeIn, hkinds.symm] at h
  · have heq : index = index' := imageFileName_inj (by simpa [placeIn] using h)
    subst heq
    rfl

end AssetJob

/-- Copies that can be made add their files in their places. -/
theorem copyEntries_eq {copies : List (AssetJob × ByteArray)}
    (hfonts : ∀ f ∈ plan.fonts, Path.isSingleName f = true)
    (hcopies : ∀ copy ∈ copies, copy.1 ∈ plan.jobs ∧
      Path.ending (copy.1.target (Path.join skinDirectory resourcesDirectory)) = .name) :
    copyEntries (Path.join skinDirectory resourcesDirectory) directory copies =
      copyFiles (Path.resolve directory skinDirectory) copies := by
  refine List.map_congr_left fun copy hcopy => ?_
  rw [AssetJob.targetPlace_eq hfonts (hcopies copy hcopy).1 (hcopies copy hcopy).2]

end WidgetSkin
