import WidgetSkin.Canvas.Basic
import WidgetSkin.Layer.Overlay
import WidgetSkin.Measure.Catalog

/-!
# Editors

An editor holds the layers of a design, the lowest first, and keeps an object on its canvas for
each of them. The geometry of a layer lies on the canvas only; everything else lies in the
layer, and what the canvas shows of it is a copy.

## Main definitions

* `EditorConfig` — what new layers start with.
* `Layer` — a layer without its geometry.
* `Editor` — layers, canvas, selection and tool.
* `Editor.ofCanvas` — a new editor.
* `Editor.snapshot`, `Editor.overlays` — what is derived from the state.
-/

namespace WidgetSkin

/-- What new layers start with, and the first background. -/
structure EditorConfig where
  textContent : String := "New Text"
  fontName : String := "Times New Roman"
  fontSize : Float := 24
  textFill : Fill := ⟨"#000000", 1⟩
  textBox : Size := ⟨110, 27⟩
  barBox : Size := ⟨200, 50⟩
  barBackground : Fill := ⟨"#000000", 1⟩
  barForeground : Fill := ⟨"#FFA500", 1⟩
  /-- The image of new rotators; the user is asked if there is none. -/
  needleImage : Option String := none
  /-- The angle at which a new needle is shown. -/
  rotatorPreviewAngle : Float := 90
  shapeBox : Size := ⟨100, 100⟩
  background : Background := {}
deriving DecidableEq

/-- The fill of a new shape. -/
def EditorConfig.shapeFill : Outline → Fill
  | .rectangle => ⟨"#0000FF", 1⟩
  | .ellipse => ⟨"#008000", 1⟩
  | .triangle => ⟨"#FF0000", 1⟩

/-- A layer of an editor. -/
structure Layer where
  id : LayerId
  name : String
  measure : Option String
  payload : Payload
  /-- The object on the canvas that has the geometry. -/
  handle : Handle
  visible : Bool := true
  locked : Bool := false
deriving DecidableEq

/-- The kind of a layer. -/
def Layer.kind (l : Layer) : LayerKind :=
  l.payload.kind

/-- The state of an editor. -/
structure Editor where
  canvas : Canvas
  config : EditorConfig
  /-- The lowest layer first. -/
  layers : List Layer := []
  background : Background
  selected : Option LayerId := none
  tool : Tool := .select
  /-- The number of the last identifier that was given. -/
  lastId : Nat := 0
  /-- How many layers of a kind have been named. -/
  named : LayerKind → Nat := fun _ => 0
  /-- The number of the editor's listener on the canvas. -/
  listener : Nat
  /-- How many changes of a geometry the editor has heard of. -/
  revision : Nat := 0

namespace Editor

/-- A new editor on a canvas. -/
def ofCanvas (canvas : Canvas) (config : EditorConfig) : Editor :=
  let (listener, canvas) := canvas.listen
  { canvas, config, background := config.background, listener }

/-- A new editor on an empty canvas. -/
def new (config : EditorConfig) : Editor :=
  ofCanvas {} config

/-- The layer with an identifier. -/
def layer? (e : Editor) (id : LayerId) : Option Layer :=
  e.layers.find? fun l => l.id = id

/-- The identifiers of the layers, the lowest first. -/
def order (e : Editor) : List LayerId :=
  e.layers.map Layer.id

/-- The editor with a layer written over the one with the same identifier. -/
def setLayer (e : Editor) (l : Layer) : Editor :=
  { e with layers := e.layers.map fun m => if m.id = l.id then l else m }

/-- The editor after something that its listener may have heard of. -/
def hear (e : Editor) (change : List Notice × Canvas) : Editor :=
  { e with
    canvas := change.2
    revision := e.revision + change.1.countP fun n => n.listener = e.listener }

/-! ## Derived views -/

/-- The layer or the fault that there is none. -/
def requireLayer (e : Editor) (id : LayerId) : Except Fault Layer :=
  match e.layer? id with
  | some l => .ok l
  | none => .error (.unknownLayer id)

/-- The geometry of a layer. -/
def geometry (e : Editor) (id : LayerId) : Except Fault Geometry := do
  let l ← e.requireLayer id
  match e.canvas.geometry? l.handle with
  | some g => return g
  | none => throw (.invalid (.noObject id))

/-- The properties that the panel shows of a layer; only rotators have some. -/
def properties (e : Editor) (id : LayerId) : Except Fault (List (String × String)) := do
  let l ← e.requireLayer id
  match l.payload with
  | .rotator n => return n.properties
  | .text _ | .image _ | .bar _ | .shape _ => return []

/-- The marks over a layer. -/
def overlayOf? (e : Editor) (l : Layer) : Option Overlay :=
  (e.canvas.geometry? l.handle).bind (Overlay.of? l.payload)

/-- The marks over a layer, if its kind has any. -/
def overlay (e : Editor) (id : LayerId) : Except Fault (Option Overlay) := do
  let l ← e.requireLayer id
  return e.overlayOf? l

/-- The marks over all layers that have any, the lowest first. -/
def overlays (e : Editor) : List (LayerId × Overlay) :=
  e.layers.filterMap fun l => (e.overlayOf? l).map (l.id, ·)

/-- A layer with its geometry. -/
def snapshotOf? (e : Editor) (l : Layer) : Option LayerSnapshot :=
  (e.canvas.geometry? l.handle).map fun geometry =>
    { id := .ofNat l.id.val, name := l.name, measure := l.measure, payload := l.payload
      geometry, visible := l.visible, locked := l.locked }

/-- The background with all layers that have an object on the canvas. -/
def snapshot (e : Editor) : Snapshot :=
  ⟨e.background, e.layers.filterMap e.snapshotOf?⟩

end Editor

end WidgetSkin
