import WidgetSkin.FileTree.Basic
import WidgetSkin.Path

/-!
# From a path to a place

How a path text leads through a tree. Every name on the way has to be an existing directory;
`.` stays and `..` goes to the directory around. What the path ends in decides what it can
name: behind a slash, a dot or a double dot only a directory can stand.

## Main definitions

* `Ending` — what a path ends in.
* `Target` — the place that a path leads to.
* `FileTree.follow` — the target of a path.
-/

namespace WidgetSkin

/-- What a path ends in. -/
inductive Ending where
  /-- A plain name. -/
  | name
  /-- A plain name and a slash. -/
  | slash
  /-- The root, a dot or a double dot. -/
  | directory
deriving DecidableEq

/-- The place that a path leads to. -/
structure Target where
  place : Location
  ending : Ending

namespace Path

/-- The longest path that the system takes, in bytes. -/
def longestPath : Nat := 4095

/-- The longest name in a directory, in bytes. -/
def longestName : Nat := 255

/-- The names of a path one after the other, dots among them. -/
def steps (path : String) : List String :=
  ((segments path.toList).filter (· ≠ [])).map .ofList

/-- What a path ends in. -/
def ending (path : String) : Ending :=
  match (steps path).getLast? with
  | none | some "." | some ".." => .directory
  | some _ => if path.toList.getLast? = some '/' then .slash else .name

end Path

namespace FileTree

/-- Go one step on from a place. -/
def enter (t : FileTree) (place : Location) (step : String) :
    Except SystemError Location :=
  match t.node? place with
  | none => .error .notFound
  | some (.file _) => .error .notDirectory
  | some .directory =>
    if step = "." then .ok place
    else if step = ".." then .ok place.dropLast
    else if Path.longestName < step.utf8ByteSize then .error .nameTooLong
    else .ok (place ++ [step])

/-- Where a path starts. -/
def start (t : FileTree) (path : String) : Location :=
  if Path.isAbsolute path then [] else t.workDir

/-- The place that a path leads to. All steps but the last one lead through directories;
whether anything stands at the place itself is left open. -/
def follow (t : FileTree) (path : String) : Except SystemError Target :=
  if path.toList.contains '\x00' then .error .nulInPath
  else if path.isEmpty then .error .notFound
  else if Path.longestPath < path.utf8ByteSize then .error .nameTooLong
  else do
    let place ← (Path.steps path).foldlM t.enter (t.start path)
    return ⟨place, Path.ending path⟩

end FileTree

end WidgetSkin
