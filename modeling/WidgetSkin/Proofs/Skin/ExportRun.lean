import WidgetSkin.Proofs.Skin.AssetCopy
import WidgetSkin.Proofs.Skin.Export

/-!
# The steps of an export

An export makes its directories one after the other, copies the assets, and writes the skin file.
Each step is only taken when the one before has succeeded, so an export that fails has taken a
first part of these steps. The last of them may have been broken off.

## Main definitions

* `skinPath`, `skinPaths` — the paths of the directories of a skin.

## Main statements

* `exportSkin_eq_ok` — the steps of an export that succeeds.
* `exportSkin_eq_error` — the steps that an export has taken when it fails.
-/

namespace WidgetSkin

namespace FileWork

variable {α β : Type} {work : FileWork α} {next : α → FileWork β} {b : β} {fault : Fault}
  {path text : String} {paths : List String} {device : Device} {t u v : FileTree} {done : Unit}

theorem runOn_bind_eq_ok : (work >>= next).runOn t = (.ok b, v) ↔
    ∃ a u, work.runOn t = (.ok a, u) ∧ (next a).runOn u = (.ok b, v) := by
  rw [runOn_bind]
  rcases work.runOn t with ⟨_ | a, u⟩ <;> simp

theorem runOn_bind_eq_error : (work >>= next).runOn t = (.error fault, v) ↔
    work.runOn t = (.error fault, v) ∨
    ∃ a u, work.runOn t = (.ok a, u) ∧ (next a).runOn u = (.error fault, v) := by
  rw [runOn_bind]
  rcases work.runOn t with ⟨_ | a, u⟩ <;> simp

theorem runOn_makeDirectory_eq_ok :
    (makeDirectory path device).runOn t = (.ok done, u) ↔ t.makeDirectory path device = .ok u := by
  rw [runOn_makeDirectory]
  rcases t.makeDirectory path device with reason | v
  · cases reason <;> simp
  · simp

/-- A directory that cannot be made leaves the files as they were. -/
theorem runOn_makeDirectory_eq_error
    (h : (makeDirectory path device).runOn t = (.error fault, u)) : u = t := by
  rw [runOn_makeDirectory] at h
  rcases hmade : t.makeDirectory path device with reason | v
  · cases reason <;> simp_all
  · simp [hmade] at h

theorem runOn_writeSkinFile_eq_ok :
    (writeSkinFile path text device).runOn t = (.ok done, u) ↔
      t.write path text.toUTF8 device = (.ok done, u) := by
  rw [runOn_writeSkinFile]
  rcases t.write path text.toUTF8 device with ⟨_ | _, v⟩ <;> simp [Except.mapError]

/-- A skin file that is not written in full is told by the fault. -/
theorem runOn_writeSkinFile_eq_error
    (h : (writeSkinFile path text device).runOn t = (.error fault, u)) :
    fault = .skinFileNotWritten path ∧
      ∃ reason, t.write path text.toUTF8 device = (.error reason, u) := by
  rw [runOn_writeSkinFile] at h
  rcases hwrite : t.write path text.toUTF8 device with ⟨reason | _, v⟩ <;> rw [hwrite] at h
  · obtain ⟨hfault, rfl⟩ := Prod.mk.inj h
    exact ⟨(Except.error.inj hfault).symm, reason, rfl⟩
  · cases h

/-! ## Several directories -/

theorem runOn_forM_makeDirectory_eq_ok :
    runOn (forM paths (makeDirectory · device)) t = (.ok done, u) ↔
      paths.foldlM (·.makeDirectory · device) t = .ok u := by
  induction paths generalizing t with
  | nil => simp [runOn_pure]
  | cons path paths ih =>
    rw [List.forM_cons, runOn_bind_eq_ok, List.foldlM_cons, bind_eq_ok_iff]
    simp only [runOn_makeDirectory_eq_ok, ih, exists_const]

/-- When a directory cannot be made, those in front of it have been. -/
theorem runOn_forM_makeDirectory_eq_error
    (h : runOn (forM paths (makeDirectory · device)) t = (.error fault, u)) :
    ∃ made, made <+: paths ∧ made ≠ paths ∧
      made.foldlM (·.makeDirectory · device) t = .ok u := by
  induction paths generalizing t with
  | nil => cases h
  | cons path paths ih =>
    rw [List.forM_cons, runOn_bind_eq_error] at h
    rcases h with hfirst | ⟨_, v, hfirst, hrest⟩
    · exact ⟨[], List.nil_prefix, by simp, by simp [runOn_makeDirectory_eq_error hfirst]⟩
    · obtain ⟨made, hpaths, hne, hmade⟩ := ih hrest
      refine ⟨path :: made, List.cons_prefix_cons.2 ⟨rfl, hpaths⟩, by simpa using hne, ?_⟩
      rw [List.foldlM_cons, runOn_makeDirectory_eq_ok.1 hfirst]
      exact hmade

end FileWork

/-! ## Exports -/

/-- The path of the directory of a skin in `root`. -/
def skinPath (root : String) (metadata : Metadata) (options : SkinOptions) : String :=
  Path.join root (metadata.directoryName options.settings)

/-- The paths of the directories of a skin. -/
def skinPaths (skinDirectory : String) : List String :=
  [skinDirectory, Path.join skinDirectory resourcesDirectory,
    Path.join (Path.join skinDirectory resourcesDirectory) fontsDirectory,
    Path.join (Path.join skinDirectory resourcesDirectory) imagesDirectory]

section Export

variable {root : String} {snapshot : Snapshot} {metadata : Metadata} {options : SkinOptions}
  {fonts : FontCache} {device : Device} {t u : FileTree} {compiled : CompiledSkin}

theorem assets_of_compile (h : compile snapshot metadata options fonts = .ok compiled) :
    compiled.assets = AssetPlan.ofLayers fonts snapshot.shown := by
  obtain ⟨-, _, -, rfl⟩ := compile_eq_ok_iff.1 h
  rfl

/-- An export as a sequence of steps. -/
theorem exportSkin_eq (root : String) (device : Device)
    (hcompile : compile snapshot metadata options fonts = .ok compiled) :
    exportSkin root snapshot metadata options fonts device =
      let skinDirectory := skinPath root metadata options
      let skinFile := Path.join skinDirectory options.settings.skinFileName
      forM (skinPaths skinDirectory) (FileWork.makeDirectory · device) >>= fun _ =>
        FileWork.copyAssets compiled.assets fonts (Path.join skinDirectory resourcesDirectory)
            device >>= fun assets =>
          FileWork.writeSkinFile skinFile compiled.text device >>= fun _ =>
            pure ⟨skinDirectory, skinFile, assets, compiled.skippedLayers⟩ := by
  simp only [exportSkin, hcompile, skinPath, skinPaths, List.forM_cons, List.forM_nil, bind_assoc,
    pure_bind]

/-- Data that do not compile leave the files as they were. -/
theorem exportSkin_of_compile_eq_error {fault : Fault}
    (hcompile : compile snapshot metadata options fonts = .error fault) (t : FileTree) :
    (exportSkin root snapshot metadata options fonts device).runOn t = (.error fault, t) := by
  simp only [exportSkin, hcompile]
  rfl

/-- An export keeps the files a tree, whether it succeeds or not. -/
theorem closed_of_export {result : Except Fault ExportReport} (hclosed : t.Closed)
    (h : (exportSkin root snapshot metadata options fonts device).runOn t = (result, u)) :
    u.Closed := by
  obtain rfl : ((exportSkin root snapshot metadata options fonts device).runOn t).2 = u :=
    congrArg Prod.snd h
  cases hcompile : compile snapshot metadata options fonts with
  | error fault =>
    rw [exportSkin_of_compile_eq_error hcompile]
    exact hclosed
  | ok compiled =>
    obtain ⟨name, hname⟩ := exists_name_of_compile hcompile
    have hwrites : t.WritesOnly (ExportPath t.workDir root _ name compiled.assets _) _ device :=
      writesOnly_exportSkin hcompile hname t
    exact hwrites.closed hclosed

/-- The steps of an export that succeeds. -/
theorem exportSkin_eq_ok {report : ExportReport}
    (h : (exportSkin root snapshot metadata options fonts device).runOn t = (.ok report, u)) :
    ∃ compiled v w, compile snapshot metadata options fonts = .ok compiled ∧
      (skinPaths (skinPath root metadata options)).foldlM (·.makeDirectory · device) t = .ok v ∧
      copyAssets compiled.assets fonts
        (Path.join (skinPath root metadata options) resourcesDirectory) v device =
          (.ok report.assets, w) ∧
      w.write (Path.join (skinPath root metadata options) options.settings.skinFileName)
        compiled.text.toUTF8 device = (.ok (), u) := by
  cases hcompile : compile snapshot metadata options fonts with
  | error fault =>
    rw [exportSkin_of_compile_eq_error hcompile] at h
    cases h
  | ok compiled =>
    simp only [exportSkin_eq root device hcompile, FileWork.runOn_bind_eq_ok] at h
    obtain ⟨_, v, hdirectories, assets, w, hassets, _, _, hwrite, hreport⟩ := h
    rw [FileWork.runOn_pure, Prod.mk.injEq, Except.ok.injEq] at hreport
    obtain ⟨rfl, rfl⟩ := hreport
    exact ⟨compiled, v, w, rfl, FileWork.runOn_forM_makeDirectory_eq_ok.1 hdirectories, hassets,
      FileWork.runOn_writeSkinFile_eq_ok.1 hwrite⟩

/-- The steps that an export of data that compile has taken when it fails: some of the directories
from the first on, copies only if all directories were made, and a part of the skin file only if
all copies succeeded. -/
theorem exportSkin_eq_error {fault : Fault}
    (hcompile : compile snapshot metadata options fonts = .ok compiled)
    (h : (exportSkin root snapshot metadata options fonts device).runOn t = (.error fault, u)) :
    ∃ made v w copies,
      made <+: skinPaths (skinPath root metadata options) ∧
      made.foldlM (·.makeDirectory · device) t = .ok v ∧
      w = v.putAll (copyEntries (Path.join (skinPath root metadata options) resourcesDirectory)
        v.workDir copies) ∧
      (copies ≠ [] → made = skinPaths (skinPath root metadata options)) ∧
      (∀ copy ∈ copies, copy.1 ∈ compiled.assets.jobs ∧
        Path.ending (copy.1.target
          (Path.join (skinPath root metadata options) resourcesDirectory)) = .name) ∧
      (u = w ∨ made = skinPaths (skinPath root metadata options) ∧
        (∃ report, copyAssets compiled.assets fonts
          (Path.join (skinPath root metadata options) resourcesDirectory) v device =
            (.ok report, w)) ∧
        fault = .skinFileNotWritten
          (Path.join (skinPath root metadata options) options.settings.skinFileName) ∧
        ∃ reason, w.write
          (Path.join (skinPath root metadata options) options.settings.skinFileName)
          compiled.text.toUTF8 device = (.error reason, u)) := by
  simp only [exportSkin_eq root device hcompile, FileWork.runOn_bind_eq_error] at h
  rcases h with hdirectories | ⟨_, v, hdirectories, h⟩
  · obtain ⟨made, hpaths, -, hmade⟩ := FileWork.runOn_forM_makeDirectory_eq_error hdirectories
    exact ⟨made, u, u, [], hpaths, hmade, rfl, by simp, by simp, .inl rfl⟩
  · have hmade := FileWork.runOn_forM_makeDirectory_eq_ok.1 hdirectories
    obtain ⟨copies, htree, hcopies⟩ := exists_copies_of_settle fonts
      (Path.join (skinPath root metadata options) resourcesDirectory) compiled.assets.jobs v device
    refine ⟨_, v, _, copies, List.prefix_rfl, hmade, htree, fun _ => rfl, hcopies, ?_⟩
    rcases h with hassets | ⟨assets, w, hassets, h⟩
    · exact .inl (congrArg Prod.snd hassets).symm
    · obtain rfl : _ = w := congrArg Prod.snd hassets
      rcases h with hwrite | ⟨_, _, _, hpure⟩
      · exact .inr ⟨rfl, ⟨assets, hassets⟩, FileWork.runOn_writeSkinFile_eq_error hwrite⟩
      · cases hpure

end Export

end WidgetSkin
