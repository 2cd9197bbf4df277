import WidgetSkin.Proofs.Skin.Exported

/-!
# What a failed export leaves

An export that fails takes nothing back, and it does no harm. It changes nothing if the data do
not compile or the skin directory is there already. Else it has added some of the directories
from the first on, and files only where copies go and only below all of the directories. The
skin file is written last, so that it is not there unless all copies have succeeded and the device
has broken off this very write. Then it holds a first part of the text.

## Main definitions

* `AddedBelow` — everything that was there is still there, and all else stands below one place.
* `Unfinished` — what is on disk after an export that failed on its way to the skin file.
* `BrokenOff` — what is on disk after an export of which the last write was broken off.

## Main statements

* `exists_leftover` — what a failed export has added.
* `exportSkin_unfinished` — a failed export changes nothing, or leaves a skin without skin file or
  with the first part of one.
* `isFile_skinFile_of_fullDevice` — a skin file that is broken off.
-/

namespace WidgetSkin

/-- A file behind a plain name stands in a directory that can be reached. -/
theorem FileTree.isOccupied_of_isFile_join {t : FileTree} {base path : String} (hbase : base ≠ "")
    (hname : Path.isSingleName path = true) (h : t.isFile (Path.join base path) = true) :
    t.isOccupied base = true := by
  obtain ⟨name, hname⟩ := Path.isSingleName_iff.1 hname
  obtain ⟨target, content, hfollow, -, -⟩ := isFile_iff.1 h
  obtain ⟨around, haround, hdirectory⟩ := follow_of_follow_join hbase
    (Path.isAbsolute_of_components_eq_name hname)
    (Path.steps_ne_nil_of_components_eq_name hname) hfollow
  refine isOccupied_iff.2 ⟨around, haround, ?_⟩
  simp [hasDirectory_iff.1 hdirectory]

/-! ## What is left -/

/-- What a failed export can have added to `t`: some of the directories of a skin that stands at
`top`, from the first on, and copies of planned assets. -/
structure Leftover (plan : AssetPlan) (top : Location) (t : FileTree) (made : List Location)
    (copies : List (AssetJob × ByteArray)) : Prop where
  prefix_made : made <+: skinDirectories top
  /-- Copies are made when all directories are there. -/
  made_eq : copies ≠ [] → made = skinDirectories top
  planned : ∀ copy ∈ copies, copy.1 ∈ plan.jobs
  /-- Nothing stood where the first directory was made. -/
  free : made ≠ [] → t.node? top = none

namespace Leftover

variable {plan : AssetPlan} {top place : Location} {t : FileTree} {made : List Location}
  {copies : List (AssetJob × ByteArray)} {content : ByteArray}

theorem made_ne_nil (h : Leftover plan top t made copies) (hcopies : copies ≠ []) :
    made ≠ [] := by
  simp [h.made_eq hcopies, skinDirectories]

theorem copies_eq_nil (h : Leftover plan top t [] copies) : copies = [] := by
  by_contra hcopies
  exact h.made_ne_nil hcopies rfl

/-- Everything that has been added stands below `top`, where nothing was. -/
theorem below (h : Leftover plan top t made copies) (hclosed : t.Closed) :
    ∀ entry ∈ FileTree.directoriesAt made ++ copyFiles top copies,
      top <+: entry.1 ∧ t.node? entry.1 = none := by
  intro entry hentry
  rcases List.mem_append.1 hentry with hdirectory | hfile
  · obtain ⟨place, hplace, rfl⟩ := List.mem_map.1 hdirectory
    have hbelow := prefix_of_mem_skinDirectories (h.prefix_made.subset hplace)
    exact ⟨hbelow, hclosed.node?_eq_none (h.free (List.ne_nil_of_mem hplace)) hbelow⟩
  · obtain ⟨copy, hcopy, rfl⟩ := List.mem_map.1 hfile
    have hmade := h.made_ne_nil (List.ne_nil_of_mem hcopy)
    have hbelow := copy.1.prefix_placeIn top
    exact ⟨hbelow, hclosed.node?_eq_none (h.free hmade) hbelow⟩

/-- A new file is a copy of a planned asset, and then all directories are there. -/
theorem file (h : Leftover plan top t made copies)
    (hnode : (t.putAll (FileTree.directoriesAt made ++ copyFiles top copies)).node? place =
      some (.file content)) (hnew : t.node? place ≠ some (.file content)) :
    (∃ job ∈ plan.jobs, place = job.placeIn top) ∧
    ∀ directory ∈ skinDirectories top,
      (t.putAll (FileTree.directoriesAt made ++ copyFiles top copies)).node? directory =
        some .directory := by
  have hmem : place ∈ (FileTree.directoriesAt made ++ copyFiles top copies).map Prod.fst := by
    by_contra hmem
    rw [FileTree.node?_putAll_of_notMem hmem] at hnode
    exact hnew hnode
  have hroot : place ≠ [] := by
    rintro rfl
    simp [FileTree.node?] at hnode
  obtain ⟨node, hentry, hput⟩ := FileTree.exists_node?_putAll (t := t) hroot hmem
  rw [hput] at hnode
  obtain rfl := Option.some.inj hnode
  rcases List.mem_append.1 hentry with hdirectory | hfile
  · obtain ⟨_, -, heq⟩ := List.mem_map.1 hdirectory
    cases heq
  · obtain ⟨copy, hcopy, heq⟩ := List.mem_map.1 hfile
    refine ⟨⟨copy.1, h.planned copy hcopy, (Prod.mk.inj heq).1.symm⟩, fun directory hmem => ?_⟩
    rw [h.made_eq (List.ne_nil_of_mem hcopy), FileTree.putAll_append,
      FileTree.node?_putAll_of_notMem, FileTree.node?_putAll_directoriesAt hmem]
    simp only [copyFiles, List.map_map, List.mem_map, Function.comp_apply, not_exists, not_and]
    rintro other - rfl
    exact other.1.placeIn_notMem_skinDirectories top hmem

end Leftover

/-- Everything that was there is unchanged, and what is new stands at or below `top`: `t` are the
files before and `u` those after. -/
structure AddedBelow (top : Location) (t u : FileTree) : Prop where
  kept : ∀ place, t.node? place ≠ none → u.node? place = t.node? place
  added : ∀ place, u.node? place ≠ t.node? place → top <+: place

/-- What is on disk after an export that failed on its way: `t` are the files before it and `u`
those after it, and the directory of the skin is `skinDirectory`. -/
structure Unfinished (plan : AssetPlan) (skinDirectory skinFileName : String)
    (t u : FileTree) : Prop extends AddedBelow (Path.resolve t.workDir skinDirectory) t u where
  /-- Directories have been made, from the first on, and copies if there are all of them. -/
  leftover : ∃ made copies, Leftover plan (Path.resolve t.workDir skinDirectory) t made copies ∧
    u = t.putAll (FileTree.directoriesAt made ++
      copyFiles (Path.resolve t.workDir skinDirectory) copies)
  /-- New files are copies of planned assets, and when there is one, all directories are there. -/
  files : ∀ place content, u.node? place = some (.file content) →
    t.node? place ≠ some (.file content) →
    (∃ job ∈ plan.jobs, place = job.placeIn (Path.resolve t.workDir skinDirectory)) ∧
    ∀ directory ∈ skinDirectories (Path.resolve t.workDir skinDirectory),
      u.node? directory = some .directory
  /-- There is no skin file. -/
  isFile_skinFile : u.isFile (Path.join skinDirectory skinFileName) = false

/-- What is on disk after an export of which the last write was broken off: `t` are the files
before it and `u` those after it. -/
structure BrokenOff (compiled : CompiledSkin) (fonts : FontCache)
    (skinDirectory skinFileName : String) (device : Device) (t u : FileTree) : Prop
    extends AddedBelow (Path.resolve t.workDir skinDirectory) t u where
  /-- All directories have been made and all copies have succeeded before, without a skin file. -/
  before : ∃ v w report, (skinPaths skinDirectory).foldlM (·.makeDirectory · device) t = .ok v ∧
    copyAssets compiled.assets fonts (Path.join skinDirectory resourcesDirectory) v device =
      (.ok report, w) ∧
    Unfinished compiled.assets skinDirectory skinFileName t w ∧
    ∀ place, place ≠ Path.resolve t.workDir skinDirectory ++ [skinFileName] →
      u.node? place = w.node? place
  /-- The device has taken the first bytes of the text, and not all of them. -/
  skinFile : ∃ taken reason,
    device.limit? (Path.resolve t.workDir skinDirectory ++ [skinFileName]) =
      some (taken, reason) ∧
    taken < compiled.text.toUTF8.size ∧
    u.node? (Path.resolve t.workDir skinDirectory ++ [skinFileName]) =
      some (.file (compiled.text.toUTF8.extract 0 taken))

/-- Directories from the first on, with copies below all of them, are no finished skin. -/
theorem Leftover.unfinished {plan : AssetPlan} {skinDirectory skinFileName : String}
    {t : FileTree} {made : List Location} {copies : List (AssetJob × ByteArray)}
    (h : Leftover plan (Path.resolve t.workDir skinDirectory) t made copies) (hclosed : t.Closed)
    (hskinDirectory : skinDirectory ≠ "") (hskinFile : Path.isSingleName skinFileName = true)
    (hfree : t.isOccupied skinDirectory = false) :
    Unfinished plan skinDirectory skinFileName t
      (t.putAll (FileTree.directoriesAt made ++
        copyFiles (Path.resolve t.workDir skinDirectory) copies)) := by
  refine ⟨⟨fun place hplace => ?_, fun place hplace => ?_⟩, ⟨made, copies, h, rfl⟩,
    fun place content => h.file, ?_⟩
  · exact FileTree.node?_putAll_of_empty (fun entry hentry => (h.below hclosed entry hentry).2)
      hplace
  · by_contra hnot
    refine hplace (FileTree.node?_putAll_of_notMem fun hmem => hnot ?_)
    obtain ⟨entry, hentry, rfl⟩ := List.mem_map.1 hmem
    exact (h.below hclosed entry hentry).1
  · rw [← Bool.not_eq_true]
    intro hfile
    by_cases hmade : made = []
    · -- nothing has been added, and the directory of a skin file would be there
      subst hmade
      obtain rfl := h.copies_eq_nil
      have hoccupied : t.isOccupied skinDirectory = true :=
        FileTree.isOccupied_of_isFile_join hskinDirectory hskinFile hfile
      simp [hfree] at hoccupied
    · obtain ⟨name, hname⟩ := Path.isSingleName_iff.1 hskinFile
      obtain ⟨target, content, hfollow, -, hnode⟩ := FileTree.isFile_iff.1 hfile
      rw [FileTree.place_of_follow hfollow, FileTree.workDir_putAll, Path.resolve_join,
        Path.resolve_of_components_eq_name _ hname] at hnode
      have hempty := hclosed.node?_eq_none (h.free hmade) (List.prefix_append _ [name])
      obtain ⟨⟨job, -, hplace⟩, -⟩ := h.file hnode (by simp [hempty])
      exact job.placeIn_ne _ name hplace.symm

/-- A file that comes to stand below `top` where nothing was. -/
theorem AddedBelow.put {top place : Location} {t u : FileTree} (h : AddedBelow top t u)
    (hempty : t.node? place = none) (hbelow : top <+: place) (content : ByteArray) :
    AddedBelow top t (u.put place (.file content)) where
  kept other hother := by
    have hne : other ≠ place := fun heq => hother (heq ▸ hempty)
    rw [FileTree.node?_put_of_ne _ hne, h.kept other hother]
  added other hother := by
    by_cases heq : other = place
    · exact heq ▸ hbelow
    · rw [FileTree.node?_put_of_ne _ heq] at hother
      exact h.added other hother

section Export

variable {root : String} {snapshot : Snapshot} {metadata : Metadata} {options : SkinOptions}
  {fonts : FontCache} {device : Device} {t u : FileTree} {compiled : CompiledSkin} {fault : Fault}

/-- What a failed export of data that compile has added before the last write. That write is only
tried when all copies have succeeded. -/
theorem exists_leftover
    (hfonts : ∀ f ∈ compiled.assets.fonts, Path.isSingleName f = true)
    (hcompile : compile snapshot metadata options fonts = .ok compiled)
    (h : (exportSkin root snapshot metadata options fonts device).runOn t = (.error fault, u)) :
    ∃ made copies w, Leftover compiled.assets
        (Path.resolve t.workDir (skinPath root metadata options)) t made copies ∧
      w = t.putAll (FileTree.directoriesAt made ++
        copyFiles (Path.resolve t.workDir (skinPath root metadata options)) copies) ∧
      (u = w ∨ made ≠ [] ∧
        (∃ v report,
          (skinPaths (skinPath root metadata options)).foldlM (·.makeDirectory · device) t =
            .ok v ∧
          copyAssets compiled.assets fonts
            (Path.join (skinPath root metadata options) resourcesDirectory) v device =
              (.ok report, w)) ∧
        fault = .skinFileNotWritten
          (Path.join (skinPath root metadata options) options.settings.skinFileName) ∧
        ∃ reason, w.write
          (Path.join (skinPath root metadata options) options.settings.skinFileName)
          compiled.text.toUTF8 device = (.error reason, u)) := by
  obtain ⟨paths, v, w, copies, hpaths, hmade, hw, hall, hcopies, hlast⟩ :=
    exportSkin_eq_error hcompile h
  have hv := FileTree.foldlM_makeDirectory_eq_ok hmade
  refine ⟨paths.map (Path.resolve t.workDir), copies, w, ⟨?_, ?_, ?_, fun hne => ?_⟩, ?_, ?_⟩
  · rw [← map_resolve_skinPaths]
    exact hpaths.map _
  · rw [← map_resolve_skinPaths]
    exact fun hne => congrArg _ (hall hne)
  · exact fun copy hcopy => (hcopies copy hcopy).1
  · obtain ⟨path, rest, rfl⟩ := List.exists_cons_of_ne_nil (mt List.map_eq_nil_iff.2 hne)
    obtain rfl : path = skinPath root metadata options := (List.cons_prefix_cons.1 hpaths).1
    exact FileTree.node?_of_foldlM_makeDirectory hmade
  · rw [hw, hv, FileTree.putAll_append, FileTree.workDir_putAll, copyEntries_eq hfonts hcopies]
  · refine hlast.imp_right fun ⟨hpathsAll, ⟨report, hassets⟩, hfault, hwrite⟩ => ?_
    subst hpathsAll
    exact ⟨by simp [skinPaths], ⟨v, report, hmade, hassets⟩, hfault, hwrite⟩

/-- A failed export changes nothing if the data do not compile or something stands where the skin
directory is to be made. Else it leaves what was there as it was, and no skin file, unless the
device has broken off the write of the skin file itself. -/
theorem exportSkin_unfinished (hclosed : t.Closed)
    (hskinFile : Path.isSingleName options.settings.skinFileName = true)
    (hfonts : ∀ f ∈ (AssetPlan.ofLayers fonts snapshot.shown).fonts, Path.isSingleName f = true)
    (h : (exportSkin root snapshot metadata options fonts device).runOn t = (.error fault, u)) :
    u.Closed ∧
    ((∃ cause, compile snapshot metadata options fonts = .error cause) ∨
        t.isOccupied (skinPath root metadata options) = true → u = t) ∧
    ∀ compiled, compile snapshot metadata options fonts = .ok compiled →
      t.isOccupied (skinPath root metadata options) = false →
      Unfinished compiled.assets (skinPath root metadata options) options.settings.skinFileName
        t u ∨
      fault = .skinFileNotWritten
          (Path.join (skinPath root metadata options) options.settings.skinFileName) ∧
        BrokenOff compiled fonts (skinPath root metadata options) options.settings.skinFileName
          device t u := by
  refine ⟨closed_of_export hclosed h, ?_⟩
  cases hcompile : compile snapshot metadata options fonts with
  | error cause =>
    rw [exportSkin_of_compile_eq_error hcompile] at h
    exact ⟨fun _ => (Prod.mk.inj h).2.symm, nofun⟩
  | ok compiled =>
    rw [← assets_of_compile hcompile] at hfonts
    obtain ⟨made, copies, w, hleft, hw, hlast⟩ := exists_leftover hfonts hcompile h
    refine ⟨fun hcases => ?_, fun _ hsame hfree => ?_⟩
    · obtain ⟨target, hfollow, hnode⟩ :=
        FileTree.isOccupied_iff.1 (hcases.resolve_left (by simp))
      rw [FileTree.place_of_follow hfollow] at hnode
      obtain rfl : made = [] := by
        by_contra hmade
        exact hnode (hleft.free hmade)
      obtain rfl := hleft.copies_eq_nil
      exact (hlast.resolve_right fun hwritten => hwritten.1 rfl).trans hw
    · obtain rfl := Except.ok.inj hsame
      obtain ⟨name, hname⟩ := exists_name_of_compile hcompile
      have hunfinished := hleft.unfinished hclosed
        (Path.join_ne_empty (Path.ne_empty_of_components_eq_name hname)) hskinFile hfree
      rw [← hw] at hunfinished
      rcases hlast with rfl | ⟨hmade, ⟨v, report, hdirectories, hassets⟩, hfault, reason, hwrite⟩
      · exact .inl hunfinished
      have hworkDir : w.workDir = t.workDir := by rw [hw, FileTree.workDir_putAll]
      rcases FileTree.write_join_eq_error hskinFile hwrite with
        rfl | ⟨taken, hlimit, htaken, rfl⟩
      · exact .inl hunfinished
      · rw [hworkDir] at hlimit ⊢
        have hempty := hclosed.node?_eq_none (hleft.free hmade)
          (List.prefix_append _ [options.settings.skinFileName])
        refine .inr ⟨hfault, hunfinished.toAddedBelow.put hempty (List.prefix_append _ _) _,
          ⟨v, w, report, hdirectories, hassets, hunfinished, fun place hplace =>
            FileTree.node?_put_of_ne _ hplace⟩, taken, reason, hlimit, htaken, ?_⟩
        rw [FileTree.node?_put _ _ _ _ (by simp), if_pos rfl]

/-- A text in a font that has a file, and a picture of an image that is not there. -/
def brokenLayers : List LayerSnapshot :=
  [textIn "Time" "Roboto", pictureOf "Logo" "nope.png"]

/-- The export of a missing image fails after the font has been copied. -/
theorem exportSkin_unfinished_brokenLayers :
    ∃ (fault : Fault) (u : FileTree) (compiled : CompiledSkin),
      (exportSkin "out" ⟨{}, brokenLayers⟩ { name := "Clock" } {} twoFonts).runOn assetTree =
        (.error fault, u) ∧
      u.isFile "out/Clock/@Resources/Fonts/Roboto.ttf" = true ∧
      Unfinished compiled.assets "out/Clock" "skin.ini" assetTree u := by
  have hfails :
      (((exportSkin "out" ⟨{}, brokenLayers⟩ { name := "Clock" } {} twoFonts).runOn
        assetTree).1.isOk,
        ((exportSkin "out" ⟨{}, brokenLayers⟩ { name := "Clock" } {} twoFonts).runOn
          assetTree).2.isFile "out/Clock/@Resources/Fonts/Roboto.ttf") = (false, true) := by
    decide +kernel
  have hcompiles : (compile ⟨{}, brokenLayers⟩ { name := "Clock" } {} twoFonts).isOk = true := by
    decide +kernel
  have hfree : assetTree.isOccupied (skinPath "out" { name := "Clock" } {}) = false := by
    decide +kernel
  have hfonts : ∀ f ∈ (AssetPlan.ofLayers twoFonts (Snapshot.shown ⟨{}, brokenLayers⟩)).fonts,
      Path.isSingleName f = true := by
    decide +kernel
  have hpath : skinPath "out" { name := "Clock" } {} = "out/Clock" := by decide +kernel
  obtain ⟨compiled, hcompile⟩ := exists_eq_ok_of_isOk hcompiles
  generalize hrun : (exportSkin "out" ⟨{}, brokenLayers⟩ { name := "Clock" } {} twoFonts).runOn
    assetTree = outcome at hfails
  obtain ⟨result, u⟩ := outcome
  obtain ⟨hresult, hfile⟩ := Prod.mk.inj hfails
  cases result with
  | ok report => cases hresult
  | error fault =>
    have hleft := (exportSkin_unfinished (by decide +kernel) (by decide) hfonts hrun).2.2
      compiled hcompile hfree
    rw [hpath] at hleft
    rcases hleft with hunfinished | ⟨-, hbroken⟩
    · exact ⟨fault, u, compiled, rfl, hfile, hunfinished⟩
    · -- the device has no limit
      obtain ⟨taken, reason, hlimit, -⟩ := hbroken.skinFile
      cases hlimit

/-- A device that is full behind ten bytes of a skin file. -/
def fullDevice : Device where
  limit? place :=
    if place = ["work", "out", "Clock", "skin.ini"] then some (10, .noSpace) else none

/-- A failed export can leave a skin file: the last write is broken off on a full device, and the
bytes that were written stay. -/
theorem isFile_skinFile_of_fullDevice :
    Path.isSingleName "skin.ini" = true ∧
    (∀ f ∈ (AssetPlan.ofLayers twoFonts assetLayers).fonts, Path.isSingleName f = true) ∧
    (compile ⟨{}, assetLayers⟩ { name := "Clock" } {} twoFonts).isOk = true ∧
    assetTree.isOccupied "out/Clock" = false ∧
    ∃ u, (exportSkin "out" ⟨{}, assetLayers⟩ { name := "Clock" } {} twoFonts fullDevice).runOn
        assetTree = (.error (.skinFileNotWritten "out/Clock/skin.ini"), u) ∧
      u.isFile "out/Clock/skin.ini" = true ∧
      u.node? ["work", "out", "Clock", "skin.ini"] = some (.file "[Metadata]".toUTF8) := by
  have hfonts : ∀ f ∈ (AssetPlan.ofLayers twoFonts assetLayers).fonts,
      Path.isSingleName f = true := by
    decide +kernel
  have hleft :
      (((exportSkin "out" ⟨{}, assetLayers⟩ { name := "Clock" } {} twoFonts fullDevice).runOn
          assetTree).1,
        ((exportSkin "out" ⟨{}, assetLayers⟩ { name := "Clock" } {} twoFonts fullDevice).runOn
          assetTree).2.isFile "out/Clock/skin.ini",
        ((exportSkin "out" ⟨{}, assetLayers⟩ { name := "Clock" } {} twoFonts fullDevice).runOn
          assetTree).2.node? ["work", "out", "Clock", "skin.ini"]) =
      (.error (.skinFileNotWritten "out/Clock/skin.ini"), true,
        some (.file "[Metadata]".toUTF8)) := by
    decide +kernel
  refine ⟨by decide, hfonts, by decide +kernel, by decide +kernel, ?_⟩
  generalize (exportSkin "out" ⟨{}, assetLayers⟩ { name := "Clock" } {} twoFonts
    fullDevice).runOn assetTree = outcome at hleft ⊢
  obtain ⟨result, u⟩ := outcome
  obtain ⟨rfl, hrest⟩ := Prod.mk.inj hleft
  obtain ⟨hfile, hnode⟩ := Prod.mk.inj hrest
  exact ⟨u, rfl, hfile, hnode⟩

end Export

end WidgetSkin
