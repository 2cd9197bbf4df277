/-!
# File trees

A tree of directories and files, held as a list of places with what stands there. Places are
lists of names from the root on, outermost first; the root itself is always a directory. The
order of the list is the order in which a directory lists its entries.

## Main definitions

* `SystemError` — why an operation on files fails.
* `Node` — a directory, or a file with its bytes.
* `FileTree` — the tree and the directory that relative paths start from.
* `FileTree.node?` — what stands at a place; every operation is described through it.
-/

namespace WidgetSkin

/-- Why an operation on files fails. -/
inductive SystemError where
  | notFound
  | alreadyExists
  | notDirectory
  | isDirectory
  | nameTooLong
  /-- The path holds a NUL character. -/
  | nulInPath
  /-- The source of a copy is no regular file. -/
  | notRegular
  | permissionDenied
  | readOnly
  | fileTooLarge
  | noSpace
  | quotaExceeded
  | inputOutput
deriving DecidableEq

/-- The text of a failure, as the system words it. -/
def SystemError.message : SystemError → String
  | notFound => "No such file or directory (os error 2)"
  | alreadyExists => "File exists (os error 17)"
  | notDirectory => "Not a directory (os error 20)"
  | isDirectory => "Is a directory (os error 21)"
  | nameTooLong => "File name too long (os error 36)"
  | nulInPath => "file name contained an unexpected NUL byte"
  | notRegular => "the source path is neither a regular file nor a symlink to a regular file"
  | permissionDenied => "Permission denied (os error 13)"
  | readOnly => "Read-only file system (os error 30)"
  | fileTooLarge => "File too large (os error 27)"
  | noSpace => "No space left on device (os error 28)"
  | quotaExceeded => "Disk quota exceeded (os error 122)"
  | inputOutput => "Input/output error (os error 5)"

/-- What stands at a place. -/
inductive Node where
  | directory
  | file (content : ByteArray)

/-- Files are equal if their bytes are. -/
instance : DecidableEq Node
  | .directory, .directory => isTrue rfl
  | .directory, .file _ => isFalse nofun
  | .file _, .directory => isFalse nofun
  | .file ⟨a⟩, .file ⟨b⟩ => decidable_of_iff (a = b) (by simp)

/-- A place in a tree: names from the root on, outermost first. -/
abbrev Location := List String

/-- A tree of directories and files. -/
structure FileTree where
  /-- Everything below the root, in listing order. -/
  entries : List (Location × Node)
  /-- The directory that relative paths start from. -/
  workDir : Location

namespace FileTree

/-- A tree whose only directory is the one that relative paths start from. -/
def empty (workDir : Location) : FileTree :=
  ⟨(List.range workDir.length).map fun n => (workDir.take (n + 1), .directory), workDir⟩

/-- What stands at a place. -/
def node? (t : FileTree) (place : Location) : Option Node :=
  if place = [] then some .directory else t.entries.lookup place

/-- Whether a directory stands at a place. -/
def hasDirectory (t : FileTree) (place : Location) : Bool :=
  t.node? place == some .directory

/-- Write an entry over the one of its place, or behind all others. -/
def setEntry (place : Location) (node : Node) :
    List (Location × Node) → List (Location × Node)
  | [] => [(place, node)]
  | entry :: rest =>
    if entry.1 = place then (place, node) :: rest else entry :: setEntry place node rest

/-- The tree with `node` at a place. -/
def put (t : FileTree) (place : Location) (node : Node) : FileTree :=
  { t with entries := setEntry place node t.entries }

/-- The names in a directory, in listing order. -/
def namesIn (t : FileTree) (place : Location) : List String :=
  t.entries.filterMap fun (l, _) =>
    match l.getLast? with
    | some name => if l.dropLast = place then some name else none
    | none => none

theorem lookup_setEntry (place other : Location) (node : Node)
    (es : List (Location × Node)) :
    (setEntry place node es).lookup other =
      if other = place then some node else es.lookup other := by
  induction es with
  | nil =>
    by_cases h : other = place
    · simp [setEntry, h]
    · simp [setEntry, List.lookup_cons, h, beq_eq_false_iff_ne.2 h]
  | cons e es ih =>
    obtain ⟨l, n⟩ := e
    by_cases hl : l = place
    · by_cases ho : other = place
      · simp [setEntry, hl, ho]
      · simp [setEntry, List.lookup_cons, hl, ho, beq_eq_false_iff_ne.2 ho]
    · by_cases ho : other = l
      · simp [setEntry, hl, ho]
      · simp [setEntry, List.lookup_cons, hl, ih, beq_eq_false_iff_ne.2 ho]

/-- A node that is put somewhere stands there, and all else stays. -/
theorem node?_put (t : FileTree) (place other : Location) (node : Node) (h : place ≠ []) :
    (t.put place node).node? other = if other = place then some node else t.node? other := by
  by_cases ho : other = []
  · simp [node?, ho, Ne.symm h]
  · simp [node?, put, ho, lookup_setEntry]

end FileTree

end WidgetSkin
