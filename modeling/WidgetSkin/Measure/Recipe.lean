import WidgetSkin.Layer.Kind

/-!
# Measures and their recipes

A measure is a value that the engine supplies, such as the time or the load of a processor.
Its recipe says which declarations a skin file needs for it.

## Main definitions

* `MeasureType`, `Category` — the engine's types of declarations, and the panel's groups.
* `Declaration` — one declaration, named by a suffix to the name of the layer's measure.
* `Recipe` — all declarations of a measure and how a meter shows their value.
* `MeasureEntry` — an entry of the catalog.
-/

namespace WidgetSkin

/-- The types of declarations that the engine knows. -/
inductive MeasureType where
  /-- A clock value in a given format. -/
  | time
  /-- The load of a processor. -/
  | cpu
  /-- The label or the space of a volume. -/
  | diskSpace
  /-- A formula over other measures. -/
  | formula
deriving DecidableEq

/-- The word for a type in a skin file. -/
def MeasureType.keyword : MeasureType → String
  | time => "Time"
  | cpu => "CPU"
  | diskSpace => "FreeDiskSpace"
  | formula => "Calc"

/-- The groups of the property panel. -/
inductive Category where
  | time
  | date
  | cpu
  | disk
deriving DecidableEq

/-- The word for a group. -/
def Category.label : Category → String
  | time => "time"
  | date => "date"
  | cpu => "cpu"
  | disk => "disk"

/-- One declaration of a measure. -/
structure Declaration where
  /-- What its name adds to the name of the layer's measure. -/
  suffix : String
  type : MeasureType
  /-- Keys and values; a value may hold a place for the name of the layer's measure. -/
  options : List (String × String)
deriving DecidableEq

namespace Declaration

/-- The place in a value where the name of the layer's measure goes. -/
def namePlace : List Char :=
  "\x7bmeasure\x7d".toList

/-- Set `name` into every place for it. The name itself is not searched again. -/
def fillIn (name : List Char) (value : List Char) : List Char :=
  go 0 value
where
  /-- Pass over `skip` characters and go on. -/
  go : Nat → List Char → List Char
    | _, [] => []
    | skip + 1, _ :: cs => go skip cs
    | 0, c :: cs =>
      if namePlace.isPrefixOf (c :: cs) then name ++ go (namePlace.length - 1) cs
      else c :: go 0 cs

/-- The name of the declaration for a layer's measure named `primary`. -/
def nameFor (d : Declaration) (primary : String) : String :=
  primary ++ d.suffix

/-- The options for a layer's measure named `primary`. -/
def optionsFor (d : Declaration) (primary : String) : List (String × String) :=
  d.options.map fun (key, value) => (key, .ofList (fillIn primary.toList value.toList))

/-- Whether meters refer to this declaration. -/
def isPrimary (d : Declaration) : Bool :=
  d.suffix.isEmpty

end Declaration

/-- How a measure is written to a skin file. -/
structure Recipe where
  /-- The declarations, those that others depend on first. -/
  declarations : List Declaration
  /-- The text that a text meter shows, with the value as `%1`. -/
  valueTemplate : String
  /-- The length of the cycle that a rotator shows, if it shows one. -/
  valueRemainder : Option Nat
deriving DecidableEq

/-- An entry of the catalog. -/
structure MeasureEntry where
  id : String
  /-- The one kind of layer that the measure applies to. -/
  kind : LayerKind
  category : Category
  label : String
  /-- A sample of the value. -/
  preview : String
  recipe : Recipe
deriving DecidableEq

end WidgetSkin
