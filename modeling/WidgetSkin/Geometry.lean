/-!
# Plane geometry

Points, sizes and placements of boxes on the working surface, and the bounds of a turned box.
Angles are clockwise degrees.

## Main definitions

* `Point`, `Size`, `Scale` — pairs of numbers, one type for each meaning.
* `Geometry` — the placement of an object: position, size, scale, angle.
* `Point.relativeTo` — a point seen from another origin.
* `Bounds.ofRotated` — the upright box around a turned box.
-/

namespace WidgetSkin

/-- A position on the working surface. -/
structure Point where
  x : Float
  y : Float
deriving DecidableEq, Inhabited

/-- The extent of a box. -/
structure Size where
  width : Float
  height : Float
deriving DecidableEq, Inhabited

/-- A factor for each axis. -/
structure Scale where
  x : Float
  y : Float
deriving DecidableEq, Inhabited

/-- The scale that changes nothing. -/
def Scale.unit : Scale := ⟨1, 1⟩

/-- The placement of an object. The position is the centre of raster objects and the upper
left corner of all others. -/
structure Geometry where
  position : Point
  /-- The box before scaling. -/
  size : Size
  scale : Scale := Scale.unit
  /-- The turn in clockwise degrees. -/
  angle : Float := 0
deriving DecidableEq, Inhabited

namespace Size

/-- Whether both sides are finite numbers. -/
def isFinite (s : Size) : Bool :=
  s.width.isFinite && s.height.isFinite

/-- Whether both sides are greater than zero. -/
def isPositive (s : Size) : Bool :=
  0 < s.width && 0 < s.height

/-- The box multiplied by a factor for each axis. -/
def scaledBy (s : Size) (f : Scale) : Size :=
  ⟨s.width * f.x, s.height * f.y⟩

/-- The factor for each axis that takes the box `s` to the box `target`. -/
def scaleTo (s target : Size) : Scale :=
  ⟨target.width / s.width, target.height / s.height⟩

end Size

/-- The box of an object as it is displayed, before turning. -/
def Geometry.scaledSize (g : Geometry) : Size :=
  g.size.scaledBy g.scale

/-- The position of `p` seen from `origin`. -/
def Point.relativeTo (p origin : Point) : Point :=
  ⟨p.x - origin.x, p.y - origin.y⟩

/-- The ratio of a half turn to its radius. -/
def pi : Float := 3.141592653589793

/-- An angle in radians. -/
def radians (degrees : Float) : Float :=
  degrees * (pi / 180)

/-- The smaller of two numbers; one that is no number is passed over. -/
def least (a b : Float) : Float :=
  if a.isNaN then b else if b < a then b else a

/-- The upright box around a turned box. -/
structure Bounds where
  width : Float
  height : Float
  /-- The factor that fits the turned box into its own bounds. -/
  scale : Float
deriving DecidableEq

namespace Bounds

/-- The bounds as a size. -/
def size (b : Bounds) : Size :=
  ⟨b.width, b.height⟩

/-- The bounds of a box after a turn by `degrees`. -/
def ofRotated (box : Size) (degrees : Float) : Bounds :=
  let angle := (radians degrees).abs
  let cos := angle.cos.abs
  let sin := angle.sin.abs
  let width := box.width * cos + box.height * sin
  let height := box.width * sin + box.height * cos
  { width, height
    scale := if 0 < width ∧ 0 < height then least (box.width / width) (box.height / height)
      else 1 }

end Bounds

end WidgetSkin
