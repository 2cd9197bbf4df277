import WidgetSkin.Layer.Payload

/-!
# Overlays

Marks that the editor draws over a rotator, derived from the layer whenever they are asked
for: its pivot and the arc that its needle sweeps.

## Main definitions

* `Overlay` — the marks over a rotator.
* `Overlay.of?` — the marks over a layer, if its kind has any.
-/

namespace WidgetSkin

/-- The marks over a rotator. Angles are degrees from the east. -/
structure Overlay where
  pivot : Point
  pivotRadius : Float
  rangeRadius : Float
  rangeStart : Float
  rangeSweep : Float
deriving DecidableEq

namespace Overlay

/-- The radius of the mark of a pivot. -/
def pivotMark : Float := 5

/-- The radius of the arc that shows a range. -/
def rangeArc : Float := 40

/-- The marks over a rotator. A needle points north at angle zero. -/
def ofNeedle (n : Needle) (g : Geometry) : Overlay where
  pivot := ⟨g.position.x + n.offsetX, g.position.y + n.offsetY⟩
  pivotRadius := pivotMark
  rangeRadius := rangeArc
  rangeStart := n.startAngle - 90
  rangeSweep := n.rotationAngle

/-- The marks over a layer, if its kind has any. -/
def of? (payload : Payload) (g : Geometry) : Option Overlay :=
  match payload with
  | .rotator n => some (ofNeedle n g)
  | .text _ | .image _ | .bar _ | .shape _ => none

end Overlay

end WidgetSkin
