import WidgetSkin.Skin.AssetPlan

/-!
# Copying assets

Every planned font and image is one copy. All copies are tried, whatever becomes of the
others; the outcome of the whole is put together afterwards, in the order of the plan. A copy
that its device breaks off has failed, and what it has copied stays.

## Main definitions

* `AssetJob` — one copy.
* `AssetJob.run` — what a copy does to the files.
* `AssetPlan.settle` — all copies of a plan.
* `AssetReport` — what was copied.
* `copyAssets` — the copies with their report.
-/

namespace WidgetSkin

/-- One planned copy. -/
inductive AssetJob where
  | font (fileName : String)
  | image (index : Nat) (source : String)
deriving DecidableEq

/-- What became of a copy. -/
inductive AssetOutcome where
  | copied
  /-- The font directory has no such file. -/
  | skipped
  | failed (fault : Fault)
deriving DecidableEq

/-- The copies of a plan. -/
def AssetPlan.jobs (plan : AssetPlan) : List AssetJob :=
  plan.fonts.map .font ++ plan.images.mapIdx .image

namespace AssetJob

/-- The file that is copied. -/
def source (fonts : FontCache) : AssetJob → String
  | font fileName => fonts.sourcePath fileName
  | image _ source => source

/-- Where the copy goes. -/
def target (resources : String) : AssetJob → String
  | font fileName => Path.join (Path.join resources fontsDirectory) fileName
  | image index _ => Path.join (Path.join resources imagesDirectory) (imageFileName index)

/-- Whether the copy may be left out: it is a font, and the font directory has no such file. -/
def isMissingFont (fonts : FontCache) (t : FileTree) : AssetJob → Bool
  | font fileName => !t.isFile (fonts.sourcePath fileName)
  | image _ _ => false

/-- Try one copy. -/
def run (fonts : FontCache) (resources : String) (job : AssetJob) (t : FileTree)
    (device : Device := {}) : AssetOutcome × FileTree :=
  if job.isMissingFont fonts t then (.skipped, t)
  else
    match t.copy (job.source fonts) (job.target resources) device with
    | (.ok (), t') => (.copied, t')
    | (.error reason, t') =>
      (.failed (.asset (job.source fonts) (.copyFailed (job.target resources) reason)), t')

end AssetJob

/-- Try copies one after the other. -/
def settle (fonts : FontCache) (resources : String) (jobs : List AssetJob) (t : FileTree)
    (device : Device := {}) : List (AssetJob × AssetOutcome) × FileTree :=
  match jobs with
  | [] => ([], t)
  | job :: jobs =>
    let (outcome, t) := job.run fonts resources t device
    let (outcomes, t) := settle fonts resources jobs t device
    ((job, outcome) :: outcomes, t)

/-- What was copied. -/
structure AssetReport where
  fontsCopied : List String := []
  fontsSkipped : List String := []
  /-- The files that the images were copied to. -/
  imagesCopied : List String := []
deriving DecidableEq

/-- The report with one more outcome in front. -/
def AssetReport.add (resources : String) (job : AssetJob) (outcome : AssetOutcome)
    (report : AssetReport) : AssetReport :=
  match job, outcome with
  | .font fileName, .copied => { report with fontsCopied := fileName :: report.fontsCopied }
  | .font fileName, .skipped => { report with fontsSkipped := fileName :: report.fontsSkipped }
  | .image _ _, .copied =>
    { report with imagesCopied := job.target resources :: report.imagesCopied }
  | _, _ => report

/-- The report of all outcomes, or the first fault among them. -/
def AssetReport.ofOutcomes (resources : String) :
    List (AssetJob × AssetOutcome) → Except Fault AssetReport
  | [] => .ok {}
  | (_, .failed fault) :: _ => .error fault
  | (job, outcome) :: rest => (ofOutcomes resources rest).map (add resources job outcome)

/-- Copy the assets of a plan to the directories for fonts and images among the resources. -/
def copyAssets (plan : AssetPlan) (fonts : FontCache) (resources : String) (t : FileTree)
    (device : Device := {}) : Except Fault AssetReport × FileTree :=
  let (outcomes, t) := settle fonts resources plan.jobs t device
  (AssetReport.ofOutcomes resources outcomes, t)

end WidgetSkin
