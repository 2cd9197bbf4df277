import WidgetSkin.Editor.Basic

/-!
# Edits of one layer

Everything that the property panel changes of a layer. An edit checks its data, then writes the
layer, then the copy on the canvas.

## Main definitions

* `Session` — an editor with the questions that it asked the user.
* `Edit` — a piece of editing that may fail.
* `Surroundings` — what an editor learns from outside: picked files and sizes of images.
* `LayerEdit` — the changes of one layer.
* `LayerEdit.run` — what each of them does.
-/

namespace WidgetSkin

/-- An editor with the kinds of layers that it asked the user to pick an image for. -/
structure Session where
  editor : Editor
  asked : List LayerKind := []

/-- A piece of editing that may fail. What it did before a failure stays. -/
abbrev Edit := ExceptT Fault (StateM Session)

/-- What an editor learns from outside. -/
structure Surroundings where
  /-- The file that the user picks for a layer; none if the user gives up. -/
  pick : LayerKind → Except Fault (Option String)
  /-- The size of an image file. -/
  imageSize? : String → Option Size

namespace Edit

/-- The present editor. -/
def editor : Edit Editor :=
  Session.editor <$> get

/-- Change the editor. -/
def update (f : Editor → Editor) : Edit Unit :=
  modify fun s => { s with editor := f s.editor }

/-- Change the canvas. -/
def onCanvas (f : Canvas → Canvas) : Edit Unit :=
  update fun e => { e with canvas := f e.canvas }

/-- The value of a computation that may fail. -/
def ofExcept {α : Type} (result : Except Fault α) : Edit α :=
  match result with
  | .ok a => return a
  | .error fault => throw fault

/-- Fail with a broken rule if a condition holds. -/
def refuseIf (condition : Bool) (cause : Invalid) : Edit Unit :=
  if condition then throw (.invalid cause) else return ()

/-- The layer with an identifier. -/
def layer (id : LayerId) : Edit Layer := do
  ofExcept ((← editor).requireLayer id)

/-- Show the content of a layer on the canvas. -/
def sync (id : LayerId) : Edit Unit := do
  let l ← layer id
  onCanvas fun c => c.setPayload l.handle l.payload

/-- The size of an image file. -/
def imageSize (s : Surroundings) (path : String) : Edit Size :=
  match s.imageSize? path with
  | some size => return size
  | none => throw (.asset path .undecodable)

/-- Ask the user for the image of a layer. -/
def ask (s : Surroundings) (kind : LayerKind) : Edit (Option String) := do
  modify fun session => { session with asked := session.asked ++ [kind] }
  ofExcept (s.pick kind)

/-! ## Contents -/

/-- Give a layer another content and show it. -/
def setPayload (l : Layer) (payload : Payload) : Edit Unit := do
  update fun e => e.setLayer { l with payload }
  sync l.id

/-- Change the content of a text layer. -/
def changeText (id : LayerId) (f : TextContent → TextContent) : Edit Unit := do
  let l ← layer id
  match l.payload with
  | .text content => setPayload l (.text (f content))
  | other => throw (.invalid (.kindMismatch id other.kind .text))

/-- Change the content of a bar layer. -/
def changeBar (id : LayerId) (f : BarContent → BarContent) : Edit Unit := do
  let l ← layer id
  match l.payload with
  | .bar content => setPayload l (.bar (f content))
  | other => throw (.invalid (.kindMismatch id other.kind .bar))

/-- Change the content of a shape layer. -/
def changeShape (id : LayerId) (f : ShapeContent → ShapeContent) : Edit Unit := do
  let l ← layer id
  match l.payload with
  | .shape content => setPayload l (.shape (f content))
  | other => throw (.invalid (.kindMismatch id other.kind .shape))

/-! ## Geometry -/

/-- Write a geometry to the canvas. -/
def writeGeometry (h : Handle) (g : Geometry) : Edit Unit :=
  update fun e => e.hear (e.canvas.setGeometry h g)

/-- Change the geometry of a layer. -/
def changeGeometry (id : LayerId) (f : Geometry → Geometry) : Edit Unit := do
  let g ← ofExcept ((← editor).geometry id)
  let l ← layer id
  writeGeometry l.handle (f g)

/-! ## Measures -/

/-- Fail unless a measure applies to a kind of layer. -/
def requireApplicable (measure : String) (kind : LayerKind) : Edit Unit := do
  let applies ←
    if measure = Catalog.customText then pure (kind == .text)
    else
      match Catalog.find? measure with
      | some entry => pure (entry.kind == kind)
      | none => throw (.measure (.unknown measure))
  if !applies then throw (.measure (.notApplicable measure kind))

/-- The content of a layer after a measure is bound: a text shows a sample. -/
def previewed (measure : String) : Payload → Payload
  | .text content =>
    .text { content with text := (Catalog.preview? measure).getD content.text }
  | other => other

/-- Bind a measure. -/
def setMeasure (id : LayerId) (measure : String) : Edit Unit := do
  let l ← layer id
  requireApplicable measure l.kind
  update fun e => e.setLayer
    { l with measure := some measure, payload := previewed measure l.payload }
  sync id

/-! ## Images and needles -/

/-- The content of a raster layer with another image. -/
def withSource (path : String) : Payload → Payload
  | .image _ => .image path
  | .rotator n => .rotator (n.withSource path)
  | other => other

/-- Show another file in a raster layer. Its box is measured anew. -/
def setImageSource (s : Surroundings) (id : LayerId) (path : String) : Edit Unit := do
  let l ← layer id
  refuseIf (!l.kind.isRaster) (.noImageSource id l.kind)
  let size ← imageSize s path
  update fun e => e.setLayer { l with payload := withSource path l.payload }
  match (← editor).canvas.geometry? l.handle with
  | some g => writeGeometry l.handle { g with size }
  | none => pure ()
  sync id

/-- Set a number of a needle from a text. A start angle also turns the needle on the canvas. -/
def setProperty (id : LayerId) (name value : String) : Edit Unit := do
  let l ← layer id
  match l.payload with
  | .rotator n =>
    let turned ← ofExcept (n.setProperty name value)
    update fun e => e.setLayer { l with payload := .rotator turned }
    if name = Needle.Property.startAngle.label then
      changeGeometry id fun g => { g with angle := turned.startAngle }
    sync id
  | other => throw (.invalid (.kindMismatch id other.kind .rotator))

/-! ## Boxes -/

/-- The geometry that shows a box of a size. A raster image keeps its own box and is scaled. -/
def resized (isRaster : Bool) (size : Size) (g : Geometry) : Geometry :=
  if isRaster ∧ g.size.isPositive then { g with scale := g.size.scaleTo size }
  else { g with size, scale := .unit }

/-- Show a layer in a box of a size. -/
def setSize (id : LayerId) (size : Size) : Edit Unit := do
  refuseIf (!size.isFinite || size.width ≤ 0 || size.height ≤ 0) (.notPositive .size)
  let l ← layer id
  changeGeometry id (resized l.kind.isRaster size)

/-- Scale a layer. -/
def setScale (id : LayerId) (scale : Scale) : Edit Unit := do
  refuseIf (!(scale.x.isFinite && scale.y.isFinite) || scale.x ≤ 0 || scale.y ≤ 0)
    (.notPositive .scale)
  changeGeometry id fun g => { g with scale }

/-- Turn a layer. -/
def setAngle (id : LayerId) (angle : Float) : Edit Unit := do
  refuseIf (!angle.isFinite) .angleNotFinite
  changeGeometry id fun g => { g with angle }

/-! ## Flags -/

/-- Show or hide a layer; the answer is whether it is shown now. -/
def toggleVisibility (id : LayerId) : Edit Bool := do
  let l ← layer id
  update fun e => e.setLayer { l with visible := !l.visible }
  onCanvas fun c => c.setVisible l.handle !l.visible
  return !l.visible

/-- Lock or unlock a layer; the answer is whether it is locked now. A locked layer cannot be
picked on the canvas. -/
def toggleLock (id : LayerId) : Edit Bool := do
  let l ← layer id
  update fun e => e.setLayer { l with locked := !l.locked }
  onCanvas fun c => c.setSelectable l.handle l.locked
  return !l.locked

end Edit

/-! ## Edits as data -/

/-- What an operation of an editor answers. -/
inductive Answer where
  | nothing
  | created (id : Option LayerId)
  | flag (b : Bool)
deriving DecidableEq

/-- A change of one layer. -/
inductive LayerEdit where
  | measure (id : String)
  | text (text : String)
  | font (name : String)
  | fontSize (size : Float)
  | textFill (fill : Fill)
  | barFill (part : BarPart) (fill : Fill)
  | shapeFill (fill : Fill)
  | imageSource (path : String)
  | property (name value : String)
  | position (p : Point)
  | size (size : Size)
  | scale (scale : Scale)
  | angle (degrees : Float)
  | toggleVisibility
  | toggleLock

/-- Make a change of a layer. -/
def LayerEdit.run (s : Surroundings) (id : LayerId) : LayerEdit → Edit Answer
  | .measure m => do Edit.setMeasure id m; return .nothing
  | .text words => do Edit.changeText id fun c => { c with text := words }; return .nothing
  | .font fontName => do Edit.changeText id fun c => { c with fontName }; return .nothing
  | .fontSize points => do
    Edit.refuseIf (!points.isFinite || points ≤ 0) (.notPositive .fontSize)
    Edit.changeText id fun c => { c with fontSize := points }
    return .nothing
  | .textFill fill => do Edit.changeText id fun c => { c with fill }; return .nothing
  | .barFill part fill => do Edit.changeBar id fun c => c.setFill part fill; return .nothing
  | .shapeFill fill => do Edit.changeShape id fun c => { c with fill }; return .nothing
  | .imageSource path => do Edit.setImageSource s id path; return .nothing
  | .property name value => do Edit.setProperty id name value; return .nothing
  | .position point => do
    Edit.changeGeometry id fun g => { g with position := point }
    return .nothing
  | .size box => do Edit.setSize id box; return .nothing
  | .scale factors => do Edit.setScale id factors; return .nothing
  | .angle degrees => do Edit.setAngle id degrees; return .nothing
  | .toggleVisibility => .flag <$> Edit.toggleVisibility id
  | .toggleLock => .flag <$> Edit.toggleLock id

end WidgetSkin
