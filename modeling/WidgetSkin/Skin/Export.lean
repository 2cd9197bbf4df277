import WidgetSkin.Skin.AssetCopy
import WidgetSkin.Skin.Compile

/-!
# Skins on disk

A compiled skin is written to a new directory: the skin file, and below `@Resources` the fonts
and images. The skin file comes last, when every copy has succeeded, so that a skin file is
never there without what it refers to. What was made before a failure stays, a skin file too of
which the device has only taken the first bytes.

## Main definitions

* `ExportReport` — what was written.
* `exportSkin` — compile and write.
-/

namespace WidgetSkin

/-- The directory of the resources in a skin directory. -/
def resourcesDirectory : String := "@Resources"

/-- What was written. -/
structure ExportReport where
  skinDirectory : String
  skinFile : String
  assets : AssetReport
  /-- The names of the layers that do not appear. -/
  skippedLayers : List String
deriving DecidableEq

/-- A piece of work on files that may fail; what it did before a failure stays. -/
abbrev FileWork := ExceptT Fault (StateM FileTree)

namespace FileWork

/-- Make a directory that is not there yet. -/
def makeDirectory (path : String) (device : Device := {}) : FileWork Unit := do
  match (← get).makeDirectory path device with
  | .ok t => set t
  | .error .alreadyExists => throw (.directoryExists path)
  | .error reason => throw (.directoryNotMade path reason)

/-- Write the skin file. -/
def writeSkinFile (path text : String) (device : Device := {}) : FileWork Unit :=
  ExceptT.mk fun t =>
    let (result, t) := t.write path text.toUTF8 device
    (result.mapError fun _ => .skinFileNotWritten path, t)

/-- Copy the assets of a plan. -/
def copyAssets (plan : AssetPlan) (fonts : FontCache) (resources : String)
    (device : Device := {}) : FileWork AssetReport :=
  ExceptT.mk fun t => WidgetSkin.copyAssets plan fonts resources t device

end FileWork

/-- Compile a snapshot and write it as a new directory below `root`. -/
def exportSkin (root : String) (snapshot : Snapshot) (metadata : Metadata)
    (options : SkinOptions) (fonts : FontCache) (device : Device := {}) :
    FileWork ExportReport := do
  match compile snapshot metadata options fonts with
  | .error fault => throw fault
  | .ok compiled =>
    let skinDirectory := Path.join root (metadata.directoryName options.settings)
    let resources := Path.join skinDirectory resourcesDirectory
    FileWork.makeDirectory skinDirectory device
    FileWork.makeDirectory resources device
    FileWork.makeDirectory (Path.join resources fontsDirectory) device
    FileWork.makeDirectory (Path.join resources imagesDirectory) device
    let assets ← FileWork.copyAssets compiled.assets fonts resources device
    let skinFile := Path.join skinDirectory options.settings.skinFileName
    FileWork.writeSkinFile skinFile compiled.text device
    return ⟨skinDirectory, skinFile, assets, compiled.skippedLayers⟩

end WidgetSkin
