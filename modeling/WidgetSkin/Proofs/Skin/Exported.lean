import WidgetSkin.Proofs.Skin.ImageNames
import WidgetSkin.Proofs.Skin.Layout

/-!
# A skin on disk

An export that succeeds adds a complete skin to the files, and nothing else. Nothing stood where
the skin directory now stands; there are now four directories, the skin file with the compiled
text, and every copied asset with the bytes of its source.

The names of the skin file and of the planned fonts have to be plain, as they are joined without
a check, and no asset may come from below the directory that the export is about to make.

## Main definitions

* `exportEntries` — everything that an export adds.
* `Exported` — what is on disk after an export that succeeded.

## Main statements

* `exists_copyFiles_of_copyAssets` — copies into a new skin directory.
* `exists_putAll_of_export` — an export adds its entries one after the other.
* `exportSkin_exported` — an export that succeeds is complete.
-/

namespace WidgetSkin

/-! ## What is added -/

/-- The files that an export adds: the copies, and the skin file. -/
def exportFiles (top : Location) (skinFileName : String) (text : ByteArray)
    (copies : List (AssetJob × ByteArray)) : List (Location × Node) :=
  copyFiles top copies ++ [(top ++ [skinFileName], .file text)]

/-- Everything that an export adds: its directories, and then its files. -/
def exportEntries (top : Location) (skinFileName : String) (text : ByteArray)
    (copies : List (AssetJob × ByteArray)) : List (Location × Node) :=
  FileTree.directoriesAt (skinDirectories top) ++ exportFiles top skinFileName text copies

/-- The copies that a report tells of. -/
def copiedAssets (report : AssetReport) (plan : AssetPlan) : List AssetJob :=
  report.fontsCopied.map .font ++ plan.images.mapIdx .image

section Entries

variable {t : FileTree} {top place directory : Location} {skinFileName : String}
  {text : ByteArray} {fonts : FontCache} {plan : AssetPlan} {node other : Node}
  {copies : List (AssetJob × ByteArray)}

theorem mem_exportEntries : (place, node) ∈ exportEntries top skinFileName text copies ↔
    place ∈ skinDirectories top ∧ node = .directory ∨
    (∃ copy ∈ copies, place = copy.1.placeIn top ∧ node = .file copy.2) ∨
    place = top ++ [skinFileName] ∧ node = .file text := by
  simp only [exportEntries, exportFiles, FileTree.directoriesAt, copyFiles, List.mem_append,
    List.mem_map, List.mem_singleton, Prod.mk.injEq, eq_comm (b := place), eq_comm (b := node)]
  grind

theorem skinFile_notMem_skinDirectories (hskinFile : skinFileName ≠ resourcesDirectory) :
    top ++ [skinFileName] ∉ skinDirectories top := by
  simp [skinDirectories, hskinFile]

/-- The files of an export stand below the skin directory, and not where its directories do. -/
theorem exists_of_mem_exportFiles (hskinFile : skinFileName ≠ resourcesDirectory)
    {entry : Location × Node} (h : entry ∈ exportFiles top skinFileName text copies) :
    ∃ names content, names ≠ [] ∧ top ++ names ∉ skinDirectories top ∧
      entry = (top ++ names, .file content) := by
  rw [exportFiles, List.mem_append, List.mem_singleton] at h
  rcases h with h | rfl
  · obtain ⟨copy, -, rfl⟩ := List.mem_map.1 h
    have hplace := AssetJob.placeIn_notMem_skinDirectories top copy.1
    obtain ⟨names, hnames, heq⟩ : ∃ names, names ≠ [] ∧ copy.1.placeIn top = top ++ names := by
      cases copy.1 <;> exact ⟨_, by simp, rfl⟩
    exact ⟨names, copy.2, hnames, heq ▸ hplace, by rw [heq]⟩
  · exact ⟨[skinFileName], text, by simp, skinFile_notMem_skinDirectories hskinFile, rfl⟩

/-- Everything that is added stands at or below the skin directory. -/
theorem prefix_of_mem_exportEntries
    (h : (place, node) ∈ exportEntries top skinFileName text copies) : top <+: place := by
  rcases mem_exportEntries.1 h with ⟨hmem, -⟩ | ⟨copy, -, rfl, -⟩ | ⟨rfl, -⟩
  · exact prefix_of_mem_skinDirectories hmem
  · exact AssetJob.prefix_placeIn top copy.1
  · exact List.prefix_append _ _

/-- Nothing is added twice to one place. -/
theorem exportEntries_unique (hskinFile : skinFileName ≠ resourcesDirectory)
    (hplanned : ∀ copy ∈ copies, copy.1 ∈ plan.jobs)
    (hcontent : ∀ copy ∈ copies,
      t.node? (copy.1.sourcePlace fonts directory) = some (.file copy.2))
    (hnode : (place, node) ∈ exportEntries top skinFileName text copies)
    (hother : (place, other) ∈ exportEntries top skinFileName text copies) : other = node := by
  have hskin : top ++ [skinFileName] ∉ skinDirectories top :=
    skinFile_notMem_skinDirectories hskinFile
  rw [mem_exportEntries] at hnode hother
  rcases hnode with ⟨hmem, rfl⟩ | ⟨copy, hcopy, rfl, rfl⟩ | ⟨rfl, rfl⟩
  · rcases hother with ⟨-, rfl⟩ | ⟨copy', -, rfl, -⟩ | ⟨rfl, -⟩
    · rfl
    · exact absurd hmem (AssetJob.placeIn_notMem_skinDirectories top copy'.1)
    · exact absurd hmem hskin
  · rcases hother with ⟨hmem, -⟩ | ⟨copy', hcopy', hplace, rfl⟩ | ⟨hplace, -⟩
    · exact absurd hmem (AssetJob.placeIn_notMem_skinDirectories top copy.1)
    · -- two copies in one place are copies of one source
      have hjob := AssetJob.placeIn_inj (hplanned copy hcopy) (hplanned copy' hcopy') hplace
      have hsame := hcontent copy hcopy
      rw [hjob, hcontent copy' hcopy'] at hsame
      exact Option.some.inj hsame
    · exact absurd hplace (AssetJob.placeIn_ne top copy.1 _)
  · rcases hother with ⟨hmem, -⟩ | ⟨copy', -, hplace, -⟩ | ⟨-, rfl⟩
    · exact absurd hmem hskin
    · exact absurd hplace.symm (AssetJob.placeIn_ne top copy'.1 _)
    · rfl

/-- Where nothing was, everything stands that is added. -/
theorem node?_putAll_exportEntries (htop : t.node? top = none)
    (hskinFile : skinFileName ≠ resourcesDirectory)
    (hplanned : ∀ copy ∈ copies, copy.1 ∈ plan.jobs)
    (hcontent : ∀ copy ∈ copies,
      t.node? (copy.1.sourcePlace fonts directory) = some (.file copy.2))
    (h : (place, node) ∈ exportEntries top skinFileName text copies) :
    (t.putAll (exportEntries top skinFileName text copies)).node? place = some node := by
  have hplace : place ≠ [] := by
    rintro rfl
    obtain rfl := List.prefix_nil.1 (prefix_of_mem_exportEntries h)
    simp [FileTree.node?] at htop
  exact FileTree.node?_putAll_of_mem hplace
    (fun _ hother => exportEntries_unique hskinFile hplanned hcontent h hother) h

theorem node?_putAll_exportEntries_of_ne (hdirectories : place ∉ skinDirectories top)
    (hskin : place ≠ top ++ [skinFileName])
    (hplaces : ∀ copy ∈ copies, place ≠ copy.1.placeIn top) :
    (t.putAll (exportEntries top skinFileName text copies)).node? place = t.node? place := by
  refine FileTree.node?_putAll_of_notMem fun hmem => ?_
  obtain ⟨⟨_, node⟩, hentry, rfl⟩ := List.mem_map.1 hmem
  rcases mem_exportEntries.1 hentry with ⟨hplace, -⟩ | ⟨copy, hcopy, hplace, -⟩ | ⟨hplace, -⟩
  · exact hdirectories hplace
  · exact hplaces copy hcopy hplace
  · exact hskin hplace

/-! ## The directories without their files -/

/-- When the directories of a skin have been made, nothing else stands below the skin directory. -/
theorem node?_putAll_skinDirectories (hclosed : t.Closed) (htop : t.node? top = none)
    {names : List String} (hnames : top ++ names ∉ skinDirectories top) :
    (t.putAll (FileTree.directoriesAt (skinDirectories top))).node? (top ++ names) = none := by
  rw [FileTree.node?_putAll_of_notMem (by simpa using hnames)]
  exact hclosed.node?_eq_none htop (List.prefix_append _ _)

/-- The files of an export leave walks as they were. -/
theorem sameWalks_putAll_exportFiles (hclosed : t.Closed) (htop : t.node? top = none)
    (hskinFile : skinFileName ≠ resourcesDirectory) :
    (t.putAll (FileTree.directoriesAt (skinDirectories top))).SameWalks
      ((t.putAll (FileTree.directoriesAt (skinDirectories top))).putAll
        (exportFiles top skinFileName text copies)) := by
  refine FileTree.sameWalks_putAll (fun entry hentry => ?_) fun entry hentry => ?_ <;>
    obtain ⟨names, content, -, hnotMem, rfl⟩ := exists_of_mem_exportFiles hskinFile hentry
  · exact ⟨content, rfl⟩
  · rw [FileTree.hasDirectory, node?_putAll_skinDirectories hclosed htop hnotMem]
    rfl

/-- A path that does not lead below the skin directory is one of a file with the files of the
export as without. -/
theorem isFile_putAll_exportFiles (hclosed : t.Closed) (htop : t.node? top = none)
    (hskinFile : skinFileName ≠ resourcesDirectory) {path : String}
    (hpath : ∀ names ≠ [], Path.resolve t.workDir path ≠ top ++ names) :
    ((t.putAll (FileTree.directoriesAt (skinDirectories top))).putAll
        (exportFiles top skinFileName text copies)).isFile path =
      (t.putAll (FileTree.directoriesAt (skinDirectories top))).isFile path := by
  refine (sameWalks_putAll_exportFiles hclosed htop hskinFile).isFile_eq ?_
  rw [FileTree.workDir_putAll]
  refine FileTree.node?_putAll_of_notMem fun hmem => ?_
  obtain ⟨entry, hentry, hplace⟩ := List.mem_map.1 hmem
  obtain ⟨names, content, hnames, -, rfl⟩ := exists_of_mem_exportFiles hskinFile hentry
  exact hpath names hnames hplace.symm

/-- A skin file can only be written where none of the directories stands. -/
theorem skinFileName_ne_of_hasDirectory
    (h : ((t.putAll (FileTree.directoriesAt (skinDirectories top))).putAll
      (copyFiles top copies)).hasDirectory (top ++ [skinFileName]) = false) :
    skinFileName ≠ resourcesDirectory := by
  rintro rfl
  have hdirectory : (t.putAll (FileTree.directoriesAt (skinDirectories top))).node?
      (top ++ [resourcesDirectory]) = some .directory :=
    FileTree.node?_putAll_directoriesAt (by simp [skinDirectories])
  rw [FileTree.hasDirectory, FileTree.node?_putAll_of_notMem, hdirectory] at h
  · cases h
  · simp [copyFiles, AssetJob.placeIn_ne]

/-- Copies into directories that have just been made, when all of them succeed: every copied font
and every image holds the bytes that its source had before. -/
theorem exists_copyFiles_of_copyAssets {skinDirectory : String} {report : AssetReport}
    {u : FileTree} (hclosed : t.Closed)
    (htop : t.node? (Path.resolve t.workDir skinDirectory) = none)
    (hfonts : ∀ f ∈ plan.fonts, Path.isSingleName f = true)
    (hsources : ∀ job ∈ plan.jobs, ∀ names ≠ [],
      job.sourcePlace fonts t.workDir ≠ Path.resolve t.workDir skinDirectory ++ names)
    (h : copyAssets plan fonts (Path.join skinDirectory resourcesDirectory)
      (t.putAll (FileTree.directoriesAt
        (skinDirectories (Path.resolve t.workDir skinDirectory)))) = (.ok report, u)) :
    ∃ copies, u = (t.putAll (FileTree.directoriesAt
          (skinDirectories (Path.resolve t.workDir skinDirectory)))).putAll
        (copyFiles (Path.resolve t.workDir skinDirectory) copies) ∧
      copies.map Prod.fst = copiedAssets report plan ∧
      (∀ copy ∈ copies, copy.1 ∈ plan.jobs ∧
        t.node? (copy.1.sourcePlace fonts t.workDir) = some (.file copy.2)) ∧
      report.fontsCopied = plan.fonts.filter (fun f => (t.putAll (FileTree.directoriesAt
        (skinDirectories (Path.resolve t.workDir skinDirectory)))).isFile (fonts.sourcePath f)) ∧
      report.fontsSkipped = plan.fonts.filter fun f => !(t.putAll (FileTree.directoriesAt
        (skinDirectories (Path.resolve t.workDir skinDirectory)))).isFile (fonts.sourcePath f) := by
  have htarget : ∀ job ∈ plan.jobs, ∃ kind name,
      job.targetPlace (Path.join skinDirectory resourcesDirectory) t.workDir =
        Path.resolve t.workDir skinDirectory ++ [resourcesDirectory, kind, name] :=
    fun job hjob => job.exists_targetPlace hfonts hjob t.workDir skinDirectory
  obtain ⟨hcopied, hskipped, copies, hjobs, rfl, hcopies⟩ := copyAssets_eq_ok
    (fun job hjob => by
      obtain ⟨kind, name, hplace⟩ := htarget job hjob
      rw [FileTree.workDir_putAll, hplace, FileTree.hasDirectory,
        node?_putAll_skinDirectories hclosed htop (by simp [skinDirectories])]
      rfl)
    (fun job hjob other hother => by
      obtain ⟨kind, name, hplace⟩ := htarget other hother
      rw [FileTree.workDir_putAll, hplace]
      exact (hsources job hjob _ (by simp)).symm) h
  rw [FileTree.workDir_putAll] at hcopies ⊢
  have hplanned : ∀ copy ∈ copies, copy.1 ∈ plan.jobs := by
    intro copy hcopy
    have hmem : copy.1 ∈ copies.map Prod.fst := List.mem_map_of_mem hcopy
    rw [hjobs, hcopied] at hmem
    exact (List.filter_sublist.map _).append_right _ |>.mem hmem
  refine ⟨copies, ?_, hjobs, fun copy hcopy => ⟨hplanned copy hcopy, ?_⟩, hcopied, hskipped⟩
  · rw [copyEntries_eq hfonts fun copy hcopy => ⟨hplanned copy hcopy, (hcopies copy hcopy).1⟩]
  · exact FileTree.node?_eq_of_putAll_directoriesAt (hcopies copy hcopy).2

end Entries

section Export

variable {root : String} {snapshot : Snapshot} {metadata : Metadata} {options : SkinOptions}
  {fonts : FontCache} {device : Device} {t u : FileTree} {report : ExportReport}
  {compiled : CompiledSkin}

/-- An export that succeeds adds its entries one after the other. -/
theorem exists_putAll_of_export (hclosed : t.Closed)
    (hskinFile : Path.isSingleName options.settings.skinFileName = true)
    (hfonts : ∀ f ∈ (AssetPlan.ofLayers fonts snapshot.shown).fonts, Path.isSingleName f = true)
    (hsources : ∀ job ∈ (AssetPlan.ofLayers fonts snapshot.shown).jobs, ∀ names ≠ [],
      job.sourcePlace fonts t.workDir ≠
        Path.resolve t.workDir (skinPath root metadata options) ++ names)
    (h : (exportSkin root snapshot metadata options fonts device).runOn t = (.ok report, u)) :
    ∃ compiled copies, compile snapshot metadata options fonts = .ok compiled ∧
      t.node? (Path.resolve t.workDir (skinPath root metadata options)) = none ∧
      options.settings.skinFileName ≠ resourcesDirectory ∧
      u = t.putAll (exportEntries (Path.resolve t.workDir (skinPath root metadata options))
        options.settings.skinFileName compiled.text.toUTF8 copies) ∧
      copies.map Prod.fst = copiedAssets report.assets compiled.assets ∧
      (∀ copy ∈ copies, copy.1 ∈ compiled.assets.jobs ∧
        t.node? (copy.1.sourcePlace fonts t.workDir) = some (.file copy.2)) ∧
      report.assets.fontsCopied =
        compiled.assets.fonts.filter (fun f => u.isFile (fonts.sourcePath f)) ∧
      report.assets.fontsSkipped =
        compiled.assets.fonts.filter (fun f => !u.isFile (fonts.sourcePath f)) := by
  obtain ⟨compiled, v, w, hcompile, hmade, hassets, hwrite⟩ := exportSkin_eq_ok h
  rw [← assets_of_compile hcompile] at hfonts hsources
  have hnone : t.node? (Path.resolve t.workDir (skinPath root metadata options)) = none :=
    FileTree.node?_of_foldlM_makeDirectory hmade
  obtain rfl := FileTree.foldlM_makeDirectory_eq_ok hmade
  rw [map_resolve_skinPaths] at hassets
  obtain ⟨copies, rfl, hjobs, hcopies, hcopied, hskipped⟩ :=
    exists_copyFiles_of_copyAssets hclosed hnone hfonts hsources (copyAssets_eq_of_ok hassets)
  obtain ⟨hfile, hu⟩ := FileTree.write_join_eq_ok hskinFile hwrite
  simp only [FileTree.workDir_putAll] at hfile hu
  generalize Path.resolve t.workDir (skinPath root metadata options) = top at *
  have hname : options.settings.skinFileName ≠ resourcesDirectory :=
    skinFileName_ne_of_hasDirectory hfile
  replace hu : u = (t.putAll (FileTree.directoriesAt (skinDirectories top))).putAll
      (exportFiles top options.settings.skinFileName compiled.text.toUTF8 copies) := by
    rw [hu, exportFiles, FileTree.putAll_append]
    rfl
  have hpresent : ∀ f ∈ compiled.assets.fonts, u.isFile (fonts.sourcePath f) =
      (t.putAll (FileTree.directoriesAt (skinDirectories top))).isFile (fonts.sourcePath f) := by
    intro f hf
    have hjob : AssetJob.font f ∈ compiled.assets.jobs :=
      AssetPlan.mem_jobs_iff.2 (.inl ⟨f, hf, rfl⟩)
    have hsource : ∀ names ≠ [], Path.resolve t.workDir (fonts.sourcePath f) ≠ top ++ names := by
      simpa only [AssetJob.sourcePlace, AssetJob.source] using hsources _ hjob
    rw [hu]
    exact isFile_putAll_exportFiles hclosed hnone hname hsource
  refine ⟨compiled, copies, hcompile, hnone, hname, ?_, hjobs, hcopies, ?_, ?_⟩
  · rw [hu, exportEntries, FileTree.putAll_append]
  · rw [hcopied]
    exact List.filter_congr fun f hf => (hpresent f hf).symm
  · rw [hskipped]
    exact List.filter_congr fun f hf => by rw [hpresent f hf]

/-- What is on disk after an export that succeeded: `t` are the files before it and `u` those
after it, and the skin stands at `top`. -/
structure Exported (shown : List LayerSnapshot) (skinFileName : String) (fonts : FontCache)
    (top : Location) (compiled : CompiledSkin) (report : AssetReport) (t u : FileTree) : Prop where
  /-- Nothing stood where the skin stands, -/
  fresh : ∀ place, top <+: place → t.node? place = none
  workDir_eq : u.workDir = t.workDir
  closed : u.Closed
  /-- and now there are its directories, -/
  directories : ∀ place ∈ skinDirectories top, u.node? place = some .directory
  /-- the skin file, -/
  skinFile : u.node? (top ++ [skinFileName]) = some (.file compiled.text.toUTF8)
  /-- the fonts that are told as copied and all planned images, with the bytes of their
  sources, -/
  assets : ∀ job ∈ copiedAssets report compiled.assets, ∃ content,
    t.node? (job.sourcePlace fonts t.workDir) = some (.file content) ∧
    u.node? (job.placeIn top) = some (.file content)
  /-- and nothing else has changed. -/
  unchanged : ∀ place, place ∉ skinDirectories top → place ≠ top ++ [skinFileName] →
    (∀ job ∈ copiedAssets report compiled.assets, place ≠ job.placeIn top) →
    u.node? place = t.node? place
  /-- The planned fonts with a file are told as copied, in the order of the plan, -/
  fontsCopied_eq : report.fontsCopied =
    compiled.assets.fonts.filter fun f => u.isFile (fonts.sourcePath f)
  /-- and the others, which had none before either, as skipped. -/
  fontsSkipped_eq : report.fontsSkipped =
    compiled.assets.fonts.filter fun f => !u.isFile (fonts.sourcePath f)
  isFile_skipped : ∀ f ∈ report.fontsSkipped, t.isFile (fonts.sourcePath f) = false
  /-- Every image name in the text leads, from the resources, to a file with the bytes of the image
  that the layer of its section shows. -/
  imageNames : ∀ s ∈ Section.readAll compiled.text, ∀ value ∈ s.valuesOf "ImageName",
    ∃ layer ∈ shown, s.name = layer.name ∧
      ∃ source index content, layer.payload.imageSource? = some source ∧
        value = "#@#" ++ imagesDirectory ++ "/" ++ imageFileName index ∧
        t.node? (Path.resolve t.workDir source) = some (.file content) ∧
        u.node? (top ++ [resourcesDirectory, imagesDirectory, imageFileName index]) =
          some (.file content)

/-- An export that succeeds puts a complete skin where nothing was, and changes nothing else. -/
theorem exportSkin_exported (hclosed : t.Closed)
    (hskinFile : Path.isSingleName options.settings.skinFileName = true)
    (hfonts : ∀ f ∈ (AssetPlan.ofLayers fonts snapshot.shown).fonts, Path.isSingleName f = true)
    (hsources : ∀ job ∈ (AssetPlan.ofLayers fonts snapshot.shown).jobs, ∀ names ≠ [],
      job.sourcePlace fonts t.workDir ≠
        Path.resolve t.workDir (skinPath root metadata options) ++ names)
    (h : (exportSkin root snapshot metadata options fonts device).runOn t = (.ok report, u)) :
    ∃ compiled, compile snapshot metadata options fonts = .ok compiled ∧
      Exported snapshot.shown options.settings.skinFileName fonts
        (Path.resolve t.workDir (skinPath root metadata options)) compiled report.assets t u := by
  have hafter := closed_of_export hclosed h
  obtain ⟨compiled, copies, hcompile, hnone, hname, rfl, hjobs, hcopies, hcopied, hskipped⟩ :=
    exists_putAll_of_export hclosed hskinFile hfonts hsources h
  generalize Path.resolve t.workDir (skinPath root metadata options) = top at *
  have hput : ∀ place node, (place, node) ∈ exportEntries top options.settings.skinFileName
        compiled.text.toUTF8 copies →
      (t.putAll (exportEntries top options.settings.skinFileName compiled.text.toUTF8
        copies)).node? place = some node := fun place node =>
    node?_putAll_exportEntries hnone hname (fun copy hcopy => (hcopies copy hcopy).1)
      fun copy hcopy => (hcopies copy hcopy).2
  have hassets : ∀ job ∈ copiedAssets report.assets compiled.assets, ∃ content,
      t.node? (job.sourcePlace fonts t.workDir) = some (.file content) ∧
      (t.putAll (exportEntries top options.settings.skinFileName compiled.text.toUTF8
        copies)).node? (job.placeIn top) = some (.file content) := by
    intro job hjob
    rw [← hjobs] at hjob
    obtain ⟨copy, hcopy, rfl⟩ := List.mem_map.1 hjob
    exact ⟨copy.2, (hcopies copy hcopy).2,
      hput _ _ (mem_exportEntries.2 (.inr (.inl ⟨copy, hcopy, rfl, rfl⟩)))⟩
  have hempty : ∀ entry ∈ exportEntries top options.settings.skinFileName
      compiled.text.toUTF8 copies, t.node? entry.1 = none := by
    rintro ⟨place, node⟩ hentry
    exact hclosed.node?_eq_none hnone (prefix_of_mem_exportEntries hentry)
  refine ⟨compiled, hcompile, {
    fresh := fun place => hclosed.node?_eq_none hnone
    workDir_eq := FileTree.workDir_putAll _ _
    directories := fun place hplace => hput _ _ (mem_exportEntries.2 (.inl ⟨hplace, rfl⟩))
    closed := hafter
    skinFile := hput _ _ (mem_exportEntries.2 (.inr (.inr ⟨rfl, rfl⟩)))
    assets := hassets
    unchanged := fun place hdirectories hskin hplaces =>
      node?_putAll_exportEntries_of_ne hdirectories hskin fun copy hcopy =>
        hplaces copy.1 (hjobs ▸ List.mem_map_of_mem hcopy)
    fontsCopied_eq := hcopied
    fontsSkipped_eq := hskipped
    isFile_skipped := fun f hf => ?_
    imageNames := fun s hs value hvalue => ?_ }⟩
  · rw [hskipped, List.mem_filter, Bool.not_eq_true'] at hf
    rw [Bool.eq_false_iff]
    intro hfile
    rw [FileTree.isFile_putAll_of_empty hempty hfile] at hf
    cases hf.2
  · obtain ⟨layer, hlayer, hsection, source, index, path, hsource, hpath, hsame, rfl⟩ :=
      exists_layer_of_imageName hcompile hs hvalue
    have hjob : AssetJob.image index path ∈ copiedAssets report.assets compiled.assets := by
      obtain ⟨hindex, rfl⟩ := List.getElem?_eq_some_iff.1 hpath
      exact List.mem_append_right _ (List.mem_mapIdx.2 ⟨index, hindex, rfl⟩)
    obtain ⟨content, hbefore, hafter⟩ := hassets _ hjob
    refine ⟨layer, hlayer, hsection, source, index, content, hsource, rfl, ?_, hafter⟩
    rw [← hbefore, AssetJob.sourcePlace, AssetJob.source, Path.resolve_congr hsame]

/-- A working directory with a directory to export to, a font and an image. -/
def assetTree : FileTree where
  entries := [(["work"], .directory), (["work", "out"], .directory),
    (["work", "fonts"], .directory), (["work", "fonts", "Roboto.ttf"], .file "font".toUTF8),
    (["work", "logo.png"], .file "picture".toUTF8)]
  workDir := ["work"]

/-- Two fonts, of which only one has a file. -/
def twoFonts : FontCache :=
  ⟨"fonts", [⟨"Roboto", "Roboto.ttf"⟩, ⟨"Ghost", "Ghost.ttf"⟩]⟩

/-- A text in a font. -/
def textIn (name fontName : String) : LayerSnapshot where
  name := name
  payload := .text ⟨"12:00", fontName, 24, ⟨"#000000", 1⟩⟩
  geometry := ⟨⟨0, 0⟩, ⟨100, 20⟩, .unit, 0⟩

/-- A picture. -/
def pictureOf (name source : String) : LayerSnapshot where
  name := name
  payload := .image source
  geometry := ⟨⟨0, 0⟩, ⟨100, 100⟩, .unit, 0⟩

/-- Two texts and two pictures of one image. -/
def assetLayers : List LayerSnapshot :=
  [textIn "Time" "Roboto", textIn "Date" "Ghost", pictureOf "Logo" "logo.png",
    pictureOf "Again" "logo.png"]

/-- The export of two texts and two pictures is complete; one font is left out. -/
theorem exportSkin_exported_assetLayers :
    ∃ report u compiled,
      (exportSkin "out" ⟨{}, assetLayers⟩ { name := "Clock" } {} twoFonts).runOn assetTree =
        (.ok report, u) ∧
      report.assets.fontsCopied = ["Roboto.ttf"] ∧ report.assets.fontsSkipped = ["Ghost.ttf"] ∧
      Exported assetLayers "skin.ini" twoFonts ["work", "out", "Clock"] compiled report.assets
        assetTree u := by
  have htold :
      (((exportSkin "out" ⟨{}, assetLayers⟩ { name := "Clock" } {} twoFonts).runOn
        assetTree).1.toOption.map fun report =>
          (report.assets.fontsCopied, report.assets.fontsSkipped)) =
        some (["Roboto.ttf"], ["Ghost.ttf"]) := by
    decide +kernel
  have htop : Path.resolve assetTree.workDir (skinPath "out" { name := "Clock" } {}) =
      ["work", "out", "Clock"] := by
    decide +kernel
  have hshown : Snapshot.shown ⟨{}, assetLayers⟩ = assetLayers := rfl
  have hfonts : ∀ f ∈ (AssetPlan.ofLayers twoFonts assetLayers).fonts,
      Path.isSingleName f = true := by
    decide +kernel
  have houtside : ∀ job ∈ (AssetPlan.ofLayers twoFonts assetLayers).jobs,
      ¬ ["work", "out", "Clock"] <+: job.sourcePlace twoFonts assetTree.workDir := by
    decide +kernel
  generalize hrun : (exportSkin "out" ⟨{}, assetLayers⟩ { name := "Clock" } {} twoFonts).runOn
    assetTree = outcome at htold
  obtain ⟨report, hreport, hfontsTold⟩ := Option.map_eq_some_iff.1 htold
  obtain ⟨hcopied, hskipped⟩ := Prod.mk.inj hfontsTold
  have hok : outcome = (.ok report, outcome.2) := Prod.ext (toOption_eq_some_iff.1 hreport) rfl
  rw [hok] at hrun
  rw [← hshown] at hfonts houtside
  rw [← htop] at houtside
  obtain ⟨compiled, -, hexported⟩ := exportSkin_exported (by decide +kernel) (by decide) hfonts
    (fun job hjob names _ heq => houtside job hjob (heq ▸ List.prefix_append _ names)) hrun
  rw [htop, hshown] at hexported
  exact ⟨report, outcome.2, compiled, hok, hcopied, hskipped, hexported⟩

end Export

end WidgetSkin
