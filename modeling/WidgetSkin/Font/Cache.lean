import WidgetSkin.Font.File
import WidgetSkin.FileTree.Operations

/-!
# The fonts of a directory

An index of the font files in a directory by the display names of their faces. It does not
depend on the order in which the directory lists its files.

## Main definitions

* `FontEntry`, `FontCache` — the index.
* `FontCache.ofDirectory` — the index of a directory.
* `FontCache.find?` — the entry with a display name.
* `FontCache.sourcePath` — where a font file is.
-/

namespace WidgetSkin

/-- A font file with the name of its face. -/
structure FontEntry where
  displayName : String
  fileName : String
deriving DecidableEq

/-- The font files of a directory. -/
structure FontCache where
  directory : String := ""
  entries : List FontEntry := []
deriving DecidableEq

namespace FontCache

/-- Whether a file counts as a font by its extension. -/
def isFontFile (path : String) : Bool :=
  match Path.lowerExtension? path with
  | some extension => extension == "ttf" || extension == "otf"
  | none => false

/-- The entry for a file of a directory, if its face can be read. -/
def fontAt? (t : FileTree) (directory fileName : String) : Option FontEntry := do
  let content ← (t.read (Path.join directory fileName)).toOption
  let face ← Font.face? content
  return ⟨face.displayName, fileName⟩

/-- The font files of a directory, sorted by name. -/
def fontFiles (t : FileTree) (directory : String) : List String :=
  match t.list directory with
  | .ok names =>
    (names.filter fun name =>
      isFontFile name && t.isFile (Path.join directory name)).mergeSort (· ≤ ·)
  | .error _ => []

/-- The index of a directory, by file name. A directory that cannot be listed has none, and
files whose face cannot be read are passed over. -/
def ofDirectory (t : FileTree) (directory : String) : FontCache :=
  ⟨directory, (fontFiles t directory).filterMap (fontAt? t directory)⟩

/-- The first entry with a display name. -/
def find? (c : FontCache) (displayName : String) : Option FontEntry :=
  c.entries.find? fun e => e.displayName == displayName

/-- Where a font file is. -/
def sourcePath (c : FontCache) (fileName : String) : String :=
  Path.join c.directory fileName

end FontCache

end WidgetSkin
