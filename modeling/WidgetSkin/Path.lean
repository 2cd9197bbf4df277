/-!
# Paths

Paths are texts with slashes. Two spellings name the same place if their components agree:
repeated and trailing slashes and inner dots do not count, a leading dot and every double dot
do.

## Main definitions

* `Path.Component`, `Path.components` — the parts of a path.
* `Path.SamePlace` — equality of the components.
* `Path.join` — a path continued by another.
* `Path.fileName?`, `Path.extension?` — the last name and what follows its last dot.
-/

namespace WidgetSkin.Path

/-- A part of a path. -/
inductive Component where
  /-- The root of an absolute path. -/
  | root
  /-- A dot at the beginning of a relative path. -/
  | here
  /-- A double dot. -/
  | up
  /-- A plain name. -/
  | name (s : String)
deriving DecidableEq

/-- The texts between the slashes of `cs`. -/
def segments (cs : List Char) : List (List Char) :=
  cs.splitOn '/'

/-- The text starts at the root. -/
def isAbsolute (path : String) : Bool :=
  path.toList.head? == some '/'

/-- The component of a segment behind the first one, if it counts. -/
def Component.ofInner? (segment : List Char) : Option Component :=
  if segment = [] ∨ segment = ['.'] then none
  else if segment = ['.', '.'] then some .up
  else some (.name (.ofList segment))

/-- The component in front of all others. -/
def Component.ofFirst? (segment : List Char) : Option Component :=
  if segment = ['.'] then some .here else ofInner? segment

/-- The parts of a path. -/
def components (path : String) : List Component :=
  match segments path.toList with
  | [] => []
  | first :: rest =>
    let head := if isAbsolute path then some .root else Component.ofFirst? first
    head.toList ++ rest.filterMap Component.ofInner?

/-- Whether two paths name the same place by their components. -/
def SamePlace (a b : String) : Prop :=
  components a = components b

instance (a b : String) : Decidable (SamePlace a b) :=
  inferInstanceAs (Decidable (components a = components b))

theorem SamePlace.refl (a : String) : SamePlace a a := rfl

theorem SamePlace.symm {a b : String} (h : SamePlace a b) : SamePlace b a := Eq.symm h

theorem SamePlace.trans {a b c : String} (hab : SamePlace a b) (hbc : SamePlace b c) :
    SamePlace a c := Eq.trans hab hbc

/-- The path `base` continued by `path`. An absolute path starts anew. -/
def join (base path : String) : String :=
  if isAbsolute path then path
  else if base.isEmpty || base.toList.getLast? == some '/' then base ++ path
  else base ++ "/" ++ path

/-- Whether a path is one plain name. -/
def isSingleName (path : String) : Bool :=
  match components path with
  | [.name _] => true
  | _ => false

theorem isSingleName_iff {path : String} :
    isSingleName path = true ↔ ∃ name, components path = [.name name] := by
  unfold isSingleName
  split
  · next name h => simp [h]
  · next h => simpa using h

/-- The last component, if it is a name. -/
def fileName? (path : String) : Option String :=
  match (components path).getLast? with
  | some (.name s) => some s
  | _ => none

/-- What follows the last dot of the file name; a dot in front of everything else is part of
the name. -/
def extension? (path : String) : Option String :=
  (fileName? path).bind fun name =>
    let cs := name.toList.reverse
    let ending := cs.takeWhile (· ≠ '.')
    match cs.drop ending.length with
    | [] | [_] => none
    | _ :: _ => some (.ofList ending.reverse)

/-- The extension with its ASCII letters in lower case. -/
def lowerExtension? (path : String) : Option String :=
  (extension? path).map String.toLower

end WidgetSkin.Path
