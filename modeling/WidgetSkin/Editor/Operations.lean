import WidgetSkin.Editor.Edit

/-!
# Operations of an editor

Placing, deleting and ordering layers, selecting, and the background. All operations are data,
so that a run of an editor is a list of them.

## Main definitions

* `Edit.create` and its kin — new layers.
* `EditorOp` — the operations.
* `Editor.step` — what an operation leads to.
* `UserAction`, `Editor.observe` — what the user does on the canvas without the editor.
-/

namespace WidgetSkin

namespace Edit

/-! ## Selection -/

/-- Select a layer. An unknown one is passed over. -/
def select (id : LayerId) : Edit Unit :=
  update fun e =>
    match e.layer? id with
    | some l => { e with selected := some id, canvas := e.canvas.setActive (some l.handle) }
    | none => e

/-- Select no layer. -/
def clearSelection : Edit Unit :=
  update fun e => { e with selected := none, canvas := e.canvas.setActive none }

/-! ## New layers -/

/-- Add a layer on top and select it. -/
def insert (payload : Payload) (geometry : Geometry) : Edit LayerId := do
  let e ← editor
  let kind := payload.kind
  let id : LayerId := ⟨e.lastId + 1⟩
  let number := e.named kind + 1
  let (handle, canvas) := e.canvas.add kind geometry payload
  let l : Layer :=
    { id, name := kind.label ++ toString number, measure := Catalog.defaultFor? kind,
      payload, handle }
  update fun e =>
    { e with
      canvas
      lastId := e.lastId + 1
      named := fun k => if k = kind then number else e.named k
      layers := e.layers ++ [l] }
  select id
  return id

/-- A new text at a point. -/
def createText (point : Point) (text : String) : Edit LayerId := do
  let c := (← editor).config
  insert (.text ⟨text, c.fontName, c.fontSize, c.textFill⟩)
    { position := point, size := c.textBox }

/-- A new bar at a point. -/
def createBar (point : Point) : Edit LayerId := do
  let c := (← editor).config
  insert (.bar ⟨c.barBackground, c.barForeground⟩) { position := point, size := c.barBox }

/-- A new shape at a point. -/
def createShape (outline : Outline) (point : Point) : Edit LayerId := do
  let c := (← editor).config
  insert (.shape ⟨outline, EditorConfig.shapeFill outline⟩)
    { position := point, size := c.shapeBox }

/-- A new image around a point, if the user picks a file. -/
def createImage (s : Surroundings) (point : Point) : Edit (Option LayerId) := do
  match ← ask s .image with
  | some source =>
    let size ← imageSize s source
    some <$> insert (.image source) { position := point, size }
  | none => return none

/-- The image of a new rotator: the one of the configuration, or else the user is asked. -/
def needleSource (s : Surroundings) : Edit (Option String) := do
  match (← editor).config.needleImage with
  | some source => return some source
  | none => ask s .rotator

/-- A new rotator around a point, if there is an image for it. -/
def createRotator (s : Surroundings) (point : Point) : Edit (Option LayerId) := do
  match ← needleSource s with
  | some source =>
    let size ← imageSize s source
    let angle := (← editor).config.rotatorPreviewAngle
    some <$> insert (.rotator { source }) { position := point, size, angle }
  | none => return none

/-- A new layer of a kind at a point. A shape is a rectangle. -/
def create (s : Surroundings) (kind : LayerKind) (point : Point) : Edit (Option LayerId) := do
  match kind with
  | .text => some <$> createText point (← editor).config.textContent
  | .image => createImage s point
  | .rotator => createRotator s point
  | .bar => some <$> createBar point
  | .shape => some <$> createShape .rectangle point

/-- Place a layer with the present tool. A tool places one layer and gives way to the selecting
tool, even if nothing comes of it. -/
def place (s : Surroundings) (point : Point) : Edit (Option LayerId) := do
  match (← editor).tool.placementKind? with
  | none => return none
  | some kind =>
    update fun e => { e with tool := .select }
    create s kind point

/-! ## Deleting and ordering -/

/-- Delete a layer; the answer is whether there was one. -/
def delete (id : LayerId) : Edit Bool := do
  let e ← editor
  match e.layer? id with
  | none => return false
  | some l =>
    update fun e =>
      { e with
        layers := e.layers.filter fun m => m.id ≠ id
        canvas := (e.canvas.remove l.handle).2 }
    if e.selected = some id then clearSelection
    return true

/-- Stack the objects on the canvas in the order of the layers. -/
def restack : Edit Unit :=
  update fun e => { e with canvas := e.canvas.restack (e.layers.map Layer.handle) }

/-- Fail at the first identifier that came before or is unknown; `seen` came before. -/
def requireDistinct (e : Editor) (seen : List LayerId) : List LayerId → Except Fault Unit
  | [] => .ok ()
  | id :: ids =>
    if seen.contains id then .error (.invalid (.reorderRepeats id))
    else if (e.layer? id).isNone then .error (.unknownLayer id)
    else requireDistinct e (id :: seen) ids

end Edit

/-- The list without the item at a place; the last item fills the gap. -/
def fillGap {α : Type} (n : Nat) (as : List α) : List α :=
  match as.getLast? with
  | some last => (as.set n last).dropLast
  | none => []

/-- The layers with some identifiers, drawn from a pile one after another. Each leaves a gap in
the pile that is filled at once; identifiers of no layer in the pile are passed over. -/
def drawFrom (pile : List Layer) : List LayerId → List Layer
  | [] => []
  | id :: ids =>
    match pile.find? fun l => l.id = id with
    | some l => l :: drawFrom (fillGap (pile.findIdx fun m => m.id = id) pile) ids
    | none => drawFrom pile ids

namespace Edit

/-- Put the layers into another order, which has to hold every one of them once. -/
def reorder (order : List LayerId) : Edit Unit := do
  let e ← editor
  refuseIf (order.length != e.layers.length) (.reorderLength e.layers.length order.length)
  ofExcept (requireDistinct e [] order)
  update fun e => { e with layers := drawFrom e.layers order }
  restack

end Edit

/-- A direction in the order of layers. -/
inductive Direction where
  /-- Toward the lowest layer. -/
  | up
  /-- Toward the highest layer. -/
  | down
deriving DecidableEq

/-- The list with the items at a place and behind it exchanged. -/
def exchangeAt {α : Type} : Nat → List α → List α
  | 0, a :: b :: rest => b :: a :: rest
  | n + 1, a :: rest => a :: exchangeAt n rest
  | _, as => as

namespace Edit

/-- Exchange a layer with its neighbour. At the end of the order nothing happens. -/
def move (id : LayerId) (direction : Direction) : Edit Unit := do
  let _ ← layer id
  let e ← editor
  let place := e.layers.findIdx fun l => l.id = id
  match direction with
  | .up =>
    if 0 < place then
      update fun e => { e with layers := exchangeAt (place - 1) e.layers }
      restack
  | .down =>
    if place + 1 < e.layers.length then
      update fun e => { e with layers := exchangeAt place e.layers }
      restack

/-! ## Background -/

/-- Resize the background. -/
def setBackgroundSize (width height : Float) : Edit Unit := do
  refuseIf (!(width.isFinite && height.isFinite) || width ≤ 0 || height ≤ 0)
    .backgroundNotPositive
  update fun e => { e with background := { e.background with width, height } }

end Edit

/-! ## Operations as data -/

/-- An operation of an editor. -/
inductive EditorOp where
  | createText (point : Point) (text : String)
  | createBar (point : Point)
  | createShape (outline : Outline) (point : Point)
  | createImage (point : Point)
  | createRotator (point : Point)
  | create (kind : LayerKind) (point : Point)
  | place (point : Point)
  | setTool (tool : Tool)
  | delete (id : LayerId)
  | reorder (order : List LayerId)
  | move (id : LayerId) (direction : Direction)
  | select (id : LayerId)
  | clearSelection
  | edit (id : LayerId) (change : LayerEdit)
  | setBackgroundPosition (position : Point)
  | setBackgroundSize (width height : Float)
  | setBackdropColor (color : String)

/-- Do an operation. -/
def EditorOp.run (s : Surroundings) : EditorOp → Edit Answer
  | .createText point text => do return .created (some (← Edit.createText point text))
  | .createBar point => do return .created (some (← Edit.createBar point))
  | .createShape outline point => do return .created (some (← Edit.createShape outline point))
  | .createImage point => .created <$> Edit.createImage s point
  | .createRotator point => .created <$> Edit.createRotator s point
  | .create kind point => .created <$> Edit.create s kind point
  | .place point => .created <$> Edit.place s point
  | .setTool tool => do Edit.update fun e => { e with tool }; return .nothing
  | .delete id => .flag <$> Edit.delete id
  | .reorder order => do Edit.reorder order; return .nothing
  | .move id direction => do Edit.move id direction; return .nothing
  | .select id => do Edit.select id; return .nothing
  | .clearSelection => do Edit.clearSelection; return .nothing
  | .edit id change => change.run s id
  | .setBackgroundPosition position => do
    Edit.update fun e => { e with background := { e.background with position } }
    return .nothing
  | .setBackgroundSize width height => do
    Edit.setBackgroundSize width height
    return .nothing
  | .setBackdropColor backdropColor => do
    Edit.update fun e => { e with background := { e.background with backdropColor } }
    return .nothing

/-- What an operation leads to. -/
structure Outcome where
  result : Except Fault Answer
  editor : Editor
  /-- The kinds of layers that the user was asked to pick an image for. -/
  asked : List LayerKind

namespace Editor

/-- Do an operation. -/
def step (s : Surroundings) (e : Editor) (op : EditorOp) : Outcome :=
  let (result, session) := (op.run s).run.run { editor := e }
  ⟨result, session.editor, session.asked⟩

end Editor

/-! ## The user on the canvas -/

/-- What the user does on the canvas without the editor. -/
inductive UserAction where
  | drag (h : Handle) (p : Point)
  | setGeometry (h : Handle) (g : Geometry)
  | remove (h : Handle)

/-- The editor after the user did something on the canvas. It hears of changed geometries
only. -/
def Editor.observe (e : Editor) : UserAction → Editor
  | .drag h p => e.hear (e.canvas.dragTo h p)
  | .setGeometry h g => e.hear (e.canvas.setGeometry h g)
  | .remove h => { e with canvas := (e.canvas.remove h).2 }

end WidgetSkin
