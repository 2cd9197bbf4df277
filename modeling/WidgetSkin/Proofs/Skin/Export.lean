import WidgetSkin.Proofs.FileTree.Writes
import WidgetSkin.Proofs.Skin.Emission
import WidgetSkin.Proofs.Skin.Validation
import WidgetSkin.Skin.Export

/-!
# Where an export writes

The name of a skin is checked to be one plain name before anything is written, and the
directories and images of an export are named by the export itself: all of them lie in the skin
directory. The name of the skin file and the file names of fonts are joined as they are given.
They stay in the skin directory if they descend, as plain names do, and nothing else sees to it.
That holds on every device, and of exports that fail as well.

## Main definitions

* `FileWork.runOn` — the result of a piece of work, with the files after it.
* `FileWork.after` — the files after a piece of work, failed or not.
* `FileWork.WritesOnly` — a piece of work that writes under admitted paths only.
* `StrayPath` — the paths of an export that may lead out of the skin directory.

## Main statements

* `exportSkin_writesOnly` — an export writes in its skin directory and under stray paths.
* `exists_export_outside` — a skin file that is written outside of the skin directory.
-/

namespace WidgetSkin

/-! ## Pieces of work -/

namespace FileWork

variable {α β : Type} {Admitted : String → Prop} {device : Device}

/-- The result of a piece of work, with the files after it. -/
def runOn (work : FileWork α) (t : FileTree) : Except Fault α × FileTree :=
  work.run.run t

/-- The files after a piece of work, whether it failed or not. -/
def after (work : FileWork α) (t : FileTree) : FileTree :=
  (work.run.run t).2

/-- The piece of work writes under admitted paths only, on success and on failure. -/
def WritesOnly (Admitted : String → Prop) (work : FileWork α) (device : Device := {}) : Prop :=
  ∀ t : FileTree, t.WritesOnly Admitted (work.after t) device

theorem writesOnly_pure (a : α) : WritesOnly Admitted (pure a) device :=
  fun t => .refl t

theorem runOn_pure (a : α) (t : FileTree) : (pure a : FileWork α).runOn t = (.ok a, t) := rfl

theorem runOn_bind (work : FileWork α) (next : α → FileWork β) (t : FileTree) :
    (work >>= next).runOn t =
      match work.runOn t with
      | (.ok a, u) => (next a).runOn u
      | (.error fault, u) => (.error fault, u) := by
  simp only [runOn, ExceptT.run, StateT.run, bind, ExceptT.bind, ExceptT.mk, StateT.bind,
    ExceptT.bindCont]
  rcases work t with ⟨_ | a, u⟩ <;> rfl

theorem after_bind (work : FileWork α) (next : α → FileWork β) (t : FileTree) :
    (work >>= next).after t =
      match work.runOn t with
      | (.ok a, u) => (next a).after u
      | (.error _, u) => u := by
  change ((work >>= next).runOn t).2 = _
  rw [runOn_bind]
  rcases work.runOn t with ⟨_ | a, u⟩ <;> rfl

theorem writesOnly_bind {work : FileWork α} {next : α → FileWork β}
    (hwork : WritesOnly Admitted work device)
    (hnext : ∀ a, WritesOnly Admitted (next a) device) :
    WritesOnly Admitted (work >>= next) device := by
  intro t
  have hfirst : t.WritesOnly Admitted (work.after t) device := hwork t
  rw [after_bind]
  change t.WritesOnly Admitted (work.runOn t).2 device at hfirst
  generalize work.runOn t = outcome at hfirst ⊢
  rcases outcome with ⟨_ | a, u⟩
  · exact hfirst
  · exact hfirst.trans (hnext a u)

theorem runOn_makeDirectory (path : String) (device : Device) (t : FileTree) :
    (makeDirectory path device).runOn t =
      match t.makeDirectory path device with
      | .ok u => (.ok (), u)
      | .error .alreadyExists => (.error (.directoryExists path), t)
      | .error reason => (.error (.directoryNotMade path reason), t) := by
  have hrun : (makeDirectory path device).runOn t =
      FileWork.runOn (match t.makeDirectory path device with
      | .ok u => set u
      | .error .alreadyExists => throw (.directoryExists path)
      | .error reason => throw (.directoryNotMade path reason)) t := rfl
  rw [hrun]
  rcases t.makeDirectory path device with reason | u
  · cases reason <;> rfl
  · rfl

theorem after_makeDirectory (path : String) (device : Device) (t : FileTree) :
    (makeDirectory path device).after t = (t.makeDirectory path device).toOption.getD t := by
  change ((makeDirectory path device).runOn t).2 = _
  rw [runOn_makeDirectory]
  rcases t.makeDirectory path device with reason | u
  · cases reason <;> rfl
  · rfl

theorem writesOnly_makeDirectory {path : String} (hpath : Admitted path) :
    WritesOnly Admitted (makeDirectory path device) device := by
  intro t
  rw [after_makeDirectory]
  cases h : t.makeDirectory path device with
  | error reason => exact .refl t
  | ok u => exact .single hpath (.makeDirectory h)

theorem runOn_writeSkinFile (path text : String) (device : Device) (t : FileTree) :
    (writeSkinFile path text device).runOn t =
      ((t.write path text.toUTF8 device).1.mapError fun _ => .skinFileNotWritten path,
        (t.write path text.toUTF8 device).2) := rfl

theorem writesOnly_writeSkinFile {path : String} (text : String) (hpath : Admitted path) :
    WritesOnly Admitted (writeSkinFile path text device) device :=
  fun _ => .single hpath (.write rfl)

/-- A copy that is tried writes where it goes, and nowhere if it is left out. -/
theorem writesOnly_run (fonts : FontCache) {resources : String} {job : AssetJob}
    (hjob : Admitted (job.target resources)) (t : FileTree) :
    t.WritesOnly Admitted (job.run fonts resources t device).2 device := by
  unfold AssetJob.run
  split
  · exact .refl t
  · split <;> next h => exact .single hjob (.copy h)

theorem writesOnly_settle (fonts : FontCache) {resources : String} {jobs : List AssetJob}
    (hjobs : ∀ job ∈ jobs, Admitted (job.target resources)) (t : FileTree) :
    t.WritesOnly Admitted (settle fonts resources jobs t device).2 device := by
  induction jobs generalizing t with
  | nil => exact .refl t
  | cons job jobs ih =>
    obtain ⟨hjob, hrest⟩ := List.forall_mem_cons.1 hjobs
    exact (writesOnly_run fonts hjob t).trans (ih hrest _)

theorem writesOnly_copyAssets {plan : AssetPlan} (fonts : FontCache) {resources : String}
    (hplan : ∀ job ∈ plan.jobs, Admitted (job.target resources)) :
    WritesOnly Admitted (copyAssets plan fonts resources device) device :=
  fun t => writesOnly_settle fonts hplan t

end FileWork

/-! ## The paths of an export -/

namespace Path

/-- A text without slashes is one plain name, if it is more than dots. -/
theorem components_eq_name {name : String} (hslash : '/' ∉ name.toList)
    (hname : name ∉ ["", ".", ".."]) : components name = [.name name] := by
  have hsegments : segments name.toList = [name.toList] := List.splitOn_eq_singleton hslash
  have habsolute : isAbsolute name = false := by
    cases h : name.toList with
    | nil => simp [isAbsolute, h]
    | cons c cs =>
      have hc : c ≠ '/' := fun hc => hslash (by simp [h, hc])
      simp [isAbsolute, h, hc]
  simp only [List.mem_cons, List.not_mem_nil, or_false, not_or, ← String.toList_inj] at hname
  obtain ⟨hempty, hdot, hup⟩ := hname
  simp_all [components, Component.ofFirst?, Component.ofInner?]

end Path

theorem components_imageFileName (index : Nat) :
    Path.components (imageFileName index) = [.name (imageFileName index)] := by
  have htext : (imageFileName index).toList = index.repr.toList ++ ['.', 'p', 'n', 'g'] := by
    simp [imageFileName]
  apply Path.components_eq_name
  · rw [htext, List.mem_append, not_or]
    exact ⟨fun h => absurd (Text.isDigit_of_mem_repr h) (by decide), by decide⟩
  · intro h
    have hp : 'p' ∈ (imageFileName index).toList := by simp [htext]
    have hnone : ∀ name ∈ ["", ".", ".."], 'p' ∉ name.toList := by decide
    exact hnone _ h hp

theorem descends_resourcesDirectory : Path.Descends resourcesDirectory :=
  Path.descends_of_isSingleName (by decide)

theorem descends_fontsDirectory : Path.Descends fontsDirectory :=
  Path.descends_of_isSingleName (by decide)

theorem descends_imagesDirectory : Path.Descends imagesDirectory :=
  Path.descends_of_isSingleName (by decide)

theorem descends_imageFileName (index : Nat) : Path.Descends (imageFileName index) :=
  Path.descends_of_components_eq_name (components_imageFileName index)

/-- A path of an export that ends in a name that nothing has checked, if the name does not
descend. -/
inductive StrayPath (skinDirectory : String) (plan : AssetPlan) (skinFileName : String) :
    String → Prop
  | font {fileName : String} (hplanned : fileName ∈ plan.fonts) (h : ¬ Path.Descends fileName) :
    StrayPath skinDirectory plan skinFileName
      ((AssetJob.font fileName).target (Path.join skinDirectory resourcesDirectory))
  | skinFile (h : ¬ Path.Descends skinFileName) :
    StrayPath skinDirectory plan skinFileName (Path.join skinDirectory skinFileName)

/-- Read from `directory`, the path names a place at or below `top`. -/
def Below (directory top : Location) (path : String) : Prop :=
  top <+: Path.resolve directory path

/-- A path of an export: it stays below the directory `name` in `root`, or it is stray. -/
def ExportPath (directory : Location) (root skinName name : String) (plan : AssetPlan)
    (skinFileName path : String) : Prop :=
  Below directory (Path.resolve directory root ++ [name]) path ∨
    StrayPath (Path.join root skinName) plan skinFileName path

/-- What is planned to be copied: fonts, and images with their places. -/
theorem AssetPlan.mem_jobs_iff {plan : AssetPlan} {job : AssetJob} : job ∈ plan.jobs ↔
    (∃ fileName ∈ plan.fonts, job = .font fileName) ∨
    ∃ index, ∃ h : index < plan.images.length, job = .image index plan.images[index] := by
  simp only [jobs, List.mem_append, List.mem_map, List.mem_mapIdx, eq_comm]

section Export

variable {directory top : Location} {root skinName name skinFileName : String}
  {plan : AssetPlan}

theorem Below.join {path below : String} (hpath : Below directory top path)
    (hbelow : Path.Descends below) : Below directory top (Path.join path below) := by
  rw [Below, Path.resolve_join]
  exact hpath.trans (hbelow _)

theorem below_skinDirectory (hname : Path.components skinName = [.name name]) :
    Below directory (Path.resolve directory root ++ [name]) (Path.join root skinName) := by
  have hresolve : Path.resolve directory (Path.join root skinName) =
      Path.resolve directory root ++ [name] := by
    rw [Path.resolve_join, Path.resolve_of_components_eq_name _ hname]
  exact hresolve ▸ List.prefix_rfl

theorem exportPath_target (hname : Path.components skinName = [.name name]) {job : AssetJob}
    (hjob : job ∈ plan.jobs) :
    ExportPath directory root skinName name plan skinFileName
      (job.target (Path.join (Path.join root skinName) resourcesDirectory)) := by
  have hresources : Below directory (Path.resolve directory root ++ [name])
      (Path.join (Path.join root skinName) resourcesDirectory) :=
    (below_skinDirectory hname).join descends_resourcesDirectory
  rcases AssetPlan.mem_jobs_iff.1 hjob with ⟨fileName, hplanned, rfl⟩ | ⟨index, _, rfl⟩
  · by_cases h : Path.Descends fileName
    · exact .inl ((hresources.join descends_fontsDirectory).join h)
    · exact .inr (.font hplanned h)
  · exact .inl ((hresources.join descends_imagesDirectory).join (descends_imageFileName index))

theorem exportPath_skinFile (hname : Path.components skinName = [.name name]) :
    ExportPath directory root skinName name plan skinFileName
      (Path.join (Path.join root skinName) skinFileName) := by
  by_cases h : Path.Descends skinFileName
  · exact .inl ((below_skinDirectory hname).join h)
  · exact .inr (.skinFile h)

/-- Once the data compile an export writes under its own paths, wherever it starts from. -/
theorem writesOnly_exportSkin {snapshot : Snapshot} {metadata : Metadata} {options : SkinOptions}
    {fonts : FontCache} {device : Device} {compiled : CompiledSkin}
    (hcompile : compile snapshot metadata options fonts = .ok compiled)
    (hname : Path.components (metadata.directoryName options.settings) = [.name name]) :
    FileWork.WritesOnly
      (ExportPath directory root (metadata.directoryName options.settings) name compiled.assets
        options.settings.skinFileName)
      (exportSkin root snapshot metadata options fonts device) device := by
  have hskin : Below directory (Path.resolve directory root ++ [name])
      (Path.join root (metadata.directoryName options.settings)) := below_skinDirectory hname
  have hresources := hskin.join descends_resourcesDirectory
  simp only [exportSkin, hcompile]
  -- one step of the work after the other
  refine FileWork.writesOnly_bind (FileWork.writesOnly_makeDirectory (.inl hskin)) fun _ => ?_
  refine FileWork.writesOnly_bind (FileWork.writesOnly_makeDirectory (.inl hresources)) fun _ => ?_
  refine FileWork.writesOnly_bind (FileWork.writesOnly_makeDirectory
    (.inl (hresources.join descends_fontsDirectory))) fun _ => ?_
  refine FileWork.writesOnly_bind (FileWork.writesOnly_makeDirectory
    (.inl (hresources.join descends_imagesDirectory))) fun _ => ?_
  refine FileWork.writesOnly_bind (FileWork.writesOnly_copyAssets fonts fun job hjob =>
    exportPath_target hname hjob) fun _ => ?_
  refine FileWork.writesOnly_bind (FileWork.writesOnly_writeSkinFile _
    (exportPath_skinFile hname)) fun _ => ?_
  exact FileWork.writesOnly_pure _

end Export

theorem exists_name_of_compile {snapshot : Snapshot} {metadata : Metadata} {options : SkinOptions}
    {fonts : FontCache} {compiled : CompiledSkin}
    (hcompile : compile snapshot metadata options fonts = .ok compiled) :
    ∃ name, Path.components (metadata.directoryName options.settings) = [.name name] := by
  have hvalid := validate_eq_ok_iff.1 (compile_eq_ok_iff.1 hcompile).1
  exact Path.isSingleName_iff.1 (checkSkinName_eq_ok_iff.1 hvalid.2.2.1)

/-- An export of data that do not compile writes nothing. Else the skin has a plain name, and
every directory that is made and every file that is written, in full or in part, lies at or below
that name in `root`, but for the skin file and fonts whose own names do not descend. -/
theorem exportSkin_writesOnly (root : String) (snapshot : Snapshot) (metadata : Metadata)
    (options : SkinOptions) (fonts : FontCache) (device : Device) (t : FileTree) :
    (∃ fault, compile snapshot metadata options fonts = .error fault ∧
      (exportSkin root snapshot metadata options fonts device).after t = t) ∨
    ∃ compiled name, compile snapshot metadata options fonts = .ok compiled ∧
      Path.components (metadata.directoryName options.settings) = [.name name] ∧
      t.WritesOnly
        (ExportPath t.workDir root (metadata.directoryName options.settings) name compiled.assets
          options.settings.skinFileName)
        ((exportSkin root snapshot metadata options fonts device).after t) device := by
  cases hcompile : compile snapshot metadata options fonts with
  | error fault =>
    have hstop : exportSkin root snapshot metadata options fonts device = throw fault := by
      simp only [exportSkin, hcompile]
    exact .inl ⟨fault, rfl, by rw [hstop]; rfl⟩
  | ok compiled =>
    obtain ⟨name, hname⟩ := exists_name_of_compile hcompile
    exact .inr ⟨compiled, name, rfl, hname, writesOnly_exportSkin hcompile hname t⟩

/-! ## A skin file outside -/

/-- A directory with one directory to export to. -/
def exportTree : FileTree :=
  ⟨[(["work"], .directory), (["work", "out"], .directory)], ["work"]⟩

/-- Settings by which the skin file stands two directories further up. -/
def strayOptions : SkinOptions :=
  { settings := { skinFileName := "../../escaped.ini" } }

/-- The skin file of an export can stand outside of the skin directory: two double dots in its
name lead out of the directory that was exported to. -/
theorem exists_export_outside :
    ∃ (root : String) (snapshot : Snapshot) (metadata : Metadata) (options : SkinOptions)
      (fonts : FontCache) (t : FileTree),
      ¬ t.WritesOnly
        (fun path => ∃ name,
          Path.components (metadata.directoryName options.settings) = [.name name] ∧
          Path.resolve t.workDir root ++ [name] <+: Path.resolve t.workDir path)
        ((exportSkin root snapshot metadata options fonts).after t) := by
  refine ⟨"out", ⟨{}, []⟩, { name := "Clock" }, strayOptions, {}, exportTree, fun h => ?_⟩
  have hsame : ((exportSkin "out" ⟨{}, []⟩ { name := "Clock" } strayOptions {}).after
      exportTree).node? ["work", "escaped.ini"] = exportTree.node? ["work", "escaped.ini"] := by
    refine h.node?_eq fun path ⟨name, hname, hbelow⟩ hplace => ?_
    have hroot : Path.resolve exportTree.workDir "out" = ["work", "out"] := by decide
    rw [hplace, hroot] at hbelow
    exact absurd hbelow (by simp)
  exact absurd hsame (by decide +kernel)

end WidgetSkin
