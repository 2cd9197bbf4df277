import WidgetSkin.FileTree.Walk

/-!
# Operations on files

Looking, reading, writing, copying and listing on a file tree, each with the failures of the
system. The device below a tree can fail as well: it may refuse that something is made, and it may
break off behind the first bytes of a file. A file that is written is made or emptied first, so
that these bytes stay.

## Main definitions

* `Device` — where a device fails, and how.
* `FileTree.find` — what stands where a path leads.
* `FileTree.read`, `FileTree.list` — the bytes of a file and the names in a directory.
* `FileTree.makeDirectory`, `FileTree.write`, `FileTree.copy` — the changes.
-/

namespace WidgetSkin

/-- Where a device fails when something is made, and how. It is known by what it does at each
place, so that whatever befalls the writes of different places, one after the other, is a device.
The device `{}` never fails. -/
structure Device where
  /-- Why nothing can be made at a place. -/
  refusal? : Location → Option SystemError := fun _ => none
  /-- How many bytes a file at a place can take, and why it takes no more. -/
  limit? : Location → Option (Nat × SystemError) := fun _ => none

namespace FileTree

/-- What stands where a path leads, with its place. -/
def find (t : FileTree) (path : String) : Except SystemError (Location × Node) := do
  let target ← t.follow path
  match t.node? target.place with
  | none => throw .notFound
  | some .directory => return (target.place, .directory)
  | some (.file content) =>
    if target.ending = .name then return (target.place, .file content)
    else throw .notDirectory

/-- Whether a path leads to a file. -/
def isFile (t : FileTree) (path : String) : Bool :=
  match t.find path with
  | .ok (_, .file _) => true
  | _ => false

/-- The bytes of the file that a path leads to. -/
def read (t : FileTree) (path : String) : Except SystemError ByteArray := do
  match ← t.find path with
  | (_, .directory) => throw .isDirectory
  | (_, .file content) => return content

/-- The names in the directory that a path leads to, in listing order. -/
def list (t : FileTree) (path : String) : Except SystemError (List String) := do
  match ← t.find path with
  | (place, .directory) => return t.namesIn place
  | (_, .file _) => throw .notDirectory

/-- Make a directory. The directory around it has to exist. -/
def makeDirectory (t : FileTree) (path : String) (device : Device := {}) :
    Except SystemError FileTree := do
  let target ← t.follow path
  if target.ending = .directory ∨ (t.node? target.place).isSome then throw .alreadyExists
  else
    match device.refusal? target.place with
    | some reason => throw reason
    | none => return t.put target.place .directory

/-- The place where a file can be written under a path: the directory around it exists and
no directory stands there. -/
def writable (t : FileTree) (path : String) : Except SystemError Location := do
  let target ← t.follow path
  if target.ending ≠ .name ∨ t.hasDirectory target.place then throw .isDirectory
  else return target.place

/-- Store a file, if there is a place for it. When the device breaks off, the bytes in front of
its limit stay. -/
def store (t : FileTree) (file : Except SystemError (Location × ByteArray)) (device : Device) :
    Except SystemError Unit × FileTree :=
  match file with
  | .error reason => (.error reason, t)
  | .ok (place, content) =>
    match device.refusal? place, (device.limit? place).filter (·.1 < content.size) with
    | some reason, _ => (.error reason, t)
    | none, some (taken, reason) => (.error reason, t.put place (.file (content.extract 0 taken)))
    | none, none => (.ok (), t.put place (.file content))

/-- Write a file, over one that is there. -/
def write (t : FileTree) (path : String) (content : ByteArray) (device : Device := {}) :
    Except SystemError Unit × FileTree :=
  t.store ((·, content) <$> t.writable path) device

/-- The file that a copy makes. The target is emptied before the source is read, so that a file
copied onto itself ends empty. -/
def copyOf (t : FileTree) (source target : String) :
    Except SystemError (Location × ByteArray) := do
  match ← t.find source with
  | (_, .directory) => throw .notRegular
  | (sourcePlace, .file content) =>
    let place ← t.writable target
    return (place, if place = sourcePlace then .empty else content)

/-- Copy a file to another path, over one that is there. -/
def copy (t : FileTree) (source target : String) (device : Device := {}) :
    Except SystemError Unit × FileTree :=
  t.store (t.copyOf source target) device

end FileTree

end WidgetSkin
