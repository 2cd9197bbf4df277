import WidgetSkin.Fault
import WidgetSkin.Decimal.Literal
import WidgetSkin.Decimal.Style
import WidgetSkin.Text.Blank

/-!
# Needles

The content of a rotator layer: an image and its calibration, four numbers that the property
panel shows and takes as texts.

## Main definitions

* `Needle` — the image of a rotator with its calibration.
* `Needle.Property` — the four numbers, each with its name.
* `Needle.properties` — what the panel shows.
* `Needle.setProperty` — what happens to a text that the panel takes.
-/

namespace WidgetSkin

/-- The image of a rotator with its calibration. Offsets go from the centre of the image to
the pivot; angles are degrees. -/
structure Needle where
  source : String
  offsetX : Float := 0
  offsetY : Float := 0
  startAngle : Float := 0
  rotationAngle : Float := 90
deriving DecidableEq

namespace Needle

/-- A number of the calibration. -/
inductive Property where
  | offsetX
  | offsetY
  | startAngle
  | rotationAngle
deriving DecidableEq

namespace Property

/-- The numbers in the order of the panel. -/
def all : List Property := [offsetX, offsetY, startAngle, rotationAngle]

/-- The name of a number. -/
def label : Property → String
  | offsetX => "offsetX"
  | offsetY => "offsetY"
  | startAngle => "startAngle"
  | rotationAngle => "rotationAngle"

/-- The number with a name. -/
def ofLabel? (s : String) : Option Property :=
  all.find? fun p => p.label == s

end Property

/-- The value of a number. -/
def get (n : Needle) : Property → Float
  | .offsetX => n.offsetX
  | .offsetY => n.offsetY
  | .startAngle => n.startAngle
  | .rotationAngle => n.rotationAngle

/-- The needle with another value for one number. -/
def set (n : Needle) (p : Property) (v : Float) : Needle :=
  match p with
  | .offsetX => { n with offsetX := v }
  | .offsetY => { n with offsetY := v }
  | .startAngle => { n with startAngle := v }
  | .rotationAngle => { n with rotationAngle := v }

/-- The names and texts that the panel shows. -/
def properties (n : Needle) : List (String × String) :=
  Property.all.map fun p => (p.label, Decimal.format (n.get p))

/-- Set the number with a name from a text. The text is looked at before the name. -/
def setProperty (n : Needle) (name value : String) : Except Fault Needle :=
  match Decimal.readFloat? (Text.trim value.toList) with
  | none => .error (.invalid (.propertyNotNumber name value))
  | some v =>
    if !v.isFinite then .error (.invalid (.propertyNotFinite name))
    else
      match Property.ofLabel? name with
      | none => .error (.invalid (.unknownProperty name))
      | some p => .ok (n.set p v)

/-- The needle with another image; the pivot goes back to the centre. -/
def withSource (n : Needle) (source : String) : Needle :=
  { n with source, offsetX := 0, offsetY := 0 }

@[simp] theorem get_set (n : Needle) (p q : Property) (v : Float) :
    (n.set p v).get q = if q = p then v else n.get q := by
  cases p <;> cases q <;> rfl

@[simp] theorem source_set (n : Needle) (p : Property) (v : Float) :
    (n.set p v).source = n.source := by
  cases p <;> rfl

end Needle

end WidgetSkin
