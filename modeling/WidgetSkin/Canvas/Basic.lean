import WidgetSkin.Layer.Payload

/-!
# Canvases

The working surface of an editor: objects with a geometry, known by handles that are never used
twice, their stacking, and one object that may be active. Listeners hear of every change of a
geometry, each of them once and in the order in which they came.

## Main definitions

* `Handle`, `CanvasObject`, `Canvas` — the surface and what lies on it.
* `Notice` — what a listener hears.
* `Canvas.add`, `Canvas.remove`, `Canvas.setGeometry`, … — the operations.
* `CanvasOp`, `Canvas.step` — the operations as data.
-/

namespace WidgetSkin

/-- The handle of an object on a canvas. -/
structure Handle where
  val : Nat
deriving DecidableEq

/-- An object on a canvas. -/
structure CanvasObject where
  kind : LayerKind
  geometry : Geometry
  payload : Payload
  visible : Bool := true
  /-- Whether the user can pick and drag the object. -/
  selectable : Bool := true
deriving DecidableEq

/-- The working surface of an editor. -/
structure Canvas where
  /-- The number of the last handle that was given. -/
  lastHandle : Nat := 0
  /-- The objects, in the order of their handles. -/
  objects : List (Handle × CanvasObject) := []
  /-- The lowest object first. -/
  stacking : List Handle := []
  active : Option Handle := none
  /-- The number of listeners. -/
  listeners : Nat := 0
deriving DecidableEq

/-- What a listener hears when a geometry changes. Listeners are numbered from zero. -/
structure Notice where
  listener : Nat
  handle : Handle
  geometry : Geometry
deriving DecidableEq

namespace Canvas

/-- The object with a handle. -/
def object? (c : Canvas) (h : Handle) : Option CanvasObject :=
  c.objects.lookup h

/-- Whether a handle has an object. -/
def isLive (c : Canvas) (h : Handle) : Bool :=
  (c.object? h).isSome

/-- The geometry of an object. -/
def geometry? (c : Canvas) (h : Handle) : Option Geometry :=
  (c.object? h).map CanvasObject.geometry

/-- Put an object on top of all others. -/
def add (c : Canvas) (kind : LayerKind) (geometry : Geometry) (payload : Payload) :
    Handle × Canvas :=
  let h : Handle := ⟨c.lastHandle + 1⟩
  (h, { c with
    lastHandle := c.lastHandle + 1
    objects := c.objects ++ [(h, { kind, geometry, payload })]
    stacking := c.stacking ++ [h] })

/-- Take an object away; the answer is whether there was one. -/
def remove (c : Canvas) (h : Handle) : Bool × Canvas :=
  if c.isLive h then
    (true, { c with
      objects := c.objects.filter fun o => o.1 ≠ h
      stacking := c.stacking.filter (· ≠ h)
      active := c.active.filter (· ≠ h) })
  else (false, c)

/-- Change an object. -/
def change (c : Canvas) (h : Handle) (f : CanvasObject → CanvasObject) : Canvas :=
  { c with objects := c.objects.map fun o => if o.1 = h then (o.1, f o.2) else o }

/-- The notices that all listeners get about an object. -/
def notices (c : Canvas) (h : Handle) (g : Geometry) : List Notice :=
  (List.range c.listeners).map (⟨·, h, g⟩)

/-- Give an object another geometry and tell the listeners. -/
def setGeometry (c : Canvas) (h : Handle) (g : Geometry) : List Notice × Canvas :=
  if c.isLive h then (c.notices h g, c.change h fun o => { o with geometry := g })
  else ([], c)

/-- Move an object as the user does. -/
def dragTo (c : Canvas) (h : Handle) (p : Point) : List Notice × Canvas :=
  match c.geometry? h with
  | some g => c.setGeometry h { g with position := p }
  | none => ([], c)

/-- Give an object another content. -/
def setPayload (c : Canvas) (h : Handle) (payload : Payload) : Canvas :=
  c.change h fun o => { o with payload }

/-- Show or hide an object. -/
def setVisible (c : Canvas) (h : Handle) (visible : Bool) : Canvas :=
  c.change h fun o => { o with visible }

/-- Let the user pick an object or not. -/
def setSelectable (c : Canvas) (h : Handle) (selectable : Bool) : Canvas :=
  c.change h fun o => { o with selectable }

/-- Stack objects in a given order, the lowest first. Handles without an object are left out. -/
def restack (c : Canvas) (order : List Handle) : Canvas :=
  { c with stacking := order.filter c.isLive }

/-- Make an object the active one, or none. -/
def setActive (c : Canvas) (h : Option Handle) : Canvas :=
  { c with active := h.filter c.isLive }

/-- Add a listener; the answer is its number. -/
def listen (c : Canvas) : Nat × Canvas :=
  (c.listeners, { c with listeners := c.listeners + 1 })

end Canvas

/-! ## Operations as data -/

/-- An operation on a canvas. -/
inductive CanvasOp where
  | add (kind : LayerKind) (geometry : Geometry) (payload : Payload)
  | remove (h : Handle)
  | setGeometry (h : Handle) (g : Geometry)
  | dragTo (h : Handle) (p : Point)
  | setPayload (h : Handle) (payload : Payload)
  | setVisible (h : Handle) (visible : Bool)
  | setSelectable (h : Handle) (selectable : Bool)
  | restack (order : List Handle)
  | setActive (h : Option Handle)
  | listen

/-- What an operation answers. -/
inductive CanvasAnswer where
  | nothing
  | handle (h : Handle)
  | flag (b : Bool)
  | listener (number : Nat)
deriving DecidableEq

/-- What an operation leads to. -/
structure CanvasStep where
  answer : CanvasAnswer := .nothing
  /-- What the listeners heard meanwhile. -/
  notices : List Notice := []
  canvas : Canvas

/-- Do an operation. -/
def Canvas.step (c : Canvas) : CanvasOp → CanvasStep
  | .add kind geometry payload =>
    let (h, canvas) := c.add kind geometry payload
    { answer := .handle h, canvas }
  | .remove h =>
    let (found, canvas) := c.remove h
    { answer := .flag found, canvas }
  | .setGeometry h g =>
    let (notices, canvas) := c.setGeometry h g
    { notices, canvas }
  | .dragTo h p =>
    let (notices, canvas) := c.dragTo h p
    { notices, canvas }
  | .setPayload h payload => { canvas := c.setPayload h payload }
  | .setVisible h visible => { canvas := c.setVisible h visible }
  | .setSelectable h selectable => { canvas := c.setSelectable h selectable }
  | .restack order => { canvas := c.restack order }
  | .setActive h => { canvas := c.setActive h }
  | .listen =>
    let (number, canvas) := c.listen
    { answer := .listener number, canvas }

end WidgetSkin
