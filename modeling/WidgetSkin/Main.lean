import WidgetSkin.CommandLine.Run

/-!
# The program

Loads the files that a command may look at into a file tree, runs the command on it, and
carries what has changed back to the disk.

## Main definitions

* `Disk.load` — the tree of everything that a list of paths leads to.
* `Disk.store` — carries the changes of a tree to the disk.
* `main` — the program.
-/

namespace WidgetSkin.Disk

/-- The text of the path to a place. -/
def pathTo (place : Location) : String :=
  "/" ++ "/".intercalate place

/-- What stands at a place of the disk. -/
def node? (place : Location) : IO (Option Node) := do
  let path := (← IO.currentDir) / pathTo place
  if ← path.isDir then return some .directory
  if ← path.pathExists then return some (.file (← IO.FS.readBinFile path))
  return none

/-- The tree with what stands at a place of the disk. -/
def loadPlace (t : FileTree) (place : Location) : IO FileTree := do
  if place.isEmpty || (t.node? place).isSome then return t
  match ← node? place with
  | some node => return t.put place node
  | none => return t

/-- The tree with everything on the way of a path. -/
def loadPath (t : FileTree) (path : String) : IO FileTree := do
  let mut t := t
  let mut place := t.start path
  for step in Path.steps path do
    match t.enter place step with
    | .ok next =>
      t ← loadPlace t next
      place := next
    | .error _ => return t
  return t

/-- The tree with the files in the directory that a path leads to. -/
def loadDirectory (t : FileTree) (path : String) : IO FileTree := do
  let t ← loadPath t path
  match t.follow path with
  | .ok target =>
    if t.hasDirectory target.place then
      let mut t := t
      for entry in ← ((← IO.currentDir) / pathTo target.place).readDir do
        if FontCache.isFontFile entry.fileName then
          t ← loadPlace t (target.place ++ [entry.fileName])
      return t
    else return t
  | .error _ => return t

/-- A tree with nothing but the present directory. -/
def start : IO FileTree := do
  return FileTree.empty (Path.steps (← IO.currentDir).toString)

/-- The tree with everything that the compilation of a design may look at. -/
def loadDesign (t : FileTree) (request : CommandLine.CompileRequest) : IO FileTree := do
  let mut t ← loadPath t request.design
  if let some directory := request.fonts then
    t ← loadDirectory t directory
  if let .ok design := Design.load t request.design then
    for source in design.layers.filterMap fun l => l.payload.imageSource? do
      t ← loadPath t source
    if let some root := request.outDirectory then
      let skin := Path.join root (design.metadata.directoryName design.settings)
      t ← loadPath t skin
      t ← loadPath t (Path.join skin design.settings.skinFileName)
  return t

/-- The tree of everything that a request may look at. -/
def load (request : CommandLine.Request) : IO FileTree := do
  match request with
  | .compile request => loadDesign (← start) request
  | .fonts directory => loadDirectory (← start) directory
  | .measures _ => start

/-- Carry the changes from one tree to another to the disk. -/
def store (old new : FileTree) : IO Unit := do
  for (place, node) in new.entries do
    if old.node? place != some node then
      match node with
      | .directory => IO.FS.createDir (pathTo place)
      | .file content => IO.FS.writeBinFile (pathTo place) content

end WidgetSkin.Disk

open WidgetSkin in
/-- Do what the arguments ask for. -/
def main (arguments : List String) : IO UInt32 := do
  let files ←
    match CommandLine.Request.ofArguments arguments with
    | .ok request => Disk.load request
    | .error _ => Disk.start
  let result := CommandLine.run arguments files
  Disk.store files result.files
  IO.print result.output
  for note in result.notes do
    IO.eprintln note
  return result.code
