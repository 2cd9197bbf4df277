import WidgetSkin.Proofs.Editor.History

/-!
# Sheets

A sheet is a design told without a canvas: one list of records, each of which holds its geometry
itself. What happens to an editor is told on a sheet in plain terms: a new layer is one more
record at the end, a deleted one is taken out, another order is a permutation, and everything
else rewrites the fields of one record. That editors do nothing else is shown in
`WidgetSkin.Proofs.Editor.Replay`.

## Main definitions

* `Record` — a layer that holds its own geometry.
* `Sheet` — a design without a canvas.
* `EditorOp.creation?` — what an operation creates.
* `LayerEdit.revise?` — what an edit makes of a record.
* `Sheet.after`, `Sheet.run` — what an event and a history do to a sheet.
-/

namespace WidgetSkin

/-! ## Records -/

/-- A layer that holds its own geometry. -/
structure Record extends Layer where
  geometry : Geometry
deriving DecidableEq

/-- The record of a layer with a geometry. -/
def Layer.recordAt (l : Layer) (geometry : Geometry) : Record :=
  { l with geometry }

namespace Record

/-- A record as it is saved and compiled. -/
def snapshot (r : Record) : LayerSnapshot where
  id := .ofNat r.id.val
  name := r.name
  measure := r.measure
  payload := r.payload
  geometry := r.geometry
  visible := r.visible
  locked := r.locked

/-- A record with another content, if it is of the kind that `f` is made for. -/
def withContent? (r : Record) (f : Payload → Option Payload) : Option Record :=
  (f r.payload).map fun payload => { r with payload }

/-- A record with another geometry. -/
def place (r : Record) (f : Geometry → Geometry) : Record :=
  { r with geometry := f r.geometry }

end Record

/-- What an edit makes of a record, if the record is of a kind that the edit is made for. -/
def LayerEdit.revise? (s : Surroundings) (r : Record) : LayerEdit → Option Record
  | .measure m =>
    (applicable m r.kind).toOption.map fun _ =>
      { r with measure := some m, payload := Edit.previewed m r.payload }
  | .text words => r.withContent? (Payload.mapText? fun c => { c with text := words })
  | .font fontName => r.withContent? (Payload.mapText? fun c => { c with fontName })
  | .fontSize points => r.withContent? (Payload.mapText? fun c => { c with fontSize := points })
  | .textFill fill => r.withContent? (Payload.mapText? fun c => { c with fill })
  | .barFill part fill => r.withContent? (Payload.mapBar? fun c => c.setFill part fill)
  | .shapeFill fill => r.withContent? (Payload.mapShape? fun c => { c with fill })
  | .imageSource path =>
    if r.kind.isRaster then
      (s.imageSize? path).map fun size =>
        { r with
          payload := Edit.withSource path r.payload
          geometry := { r.geometry with size } }
    else none
  | .property name value =>
    match r.payload with
    | .rotator n =>
      (n.setProperty name value).toOption.map fun turned =>
        { r with
          payload := .rotator turned
          geometry :=
            if name = Needle.Property.startAngle.label then
              { r.geometry with angle := turned.startAngle }
            else r.geometry }
    | .text _ | .image _ | .bar _ | .shape _ => none
  | .position point => some (r.place fun g => { g with position := point })
  | .size box => some (r.place (Edit.resized r.kind.isRaster box))
  | .scale factors => some (r.place fun g => { g with scale := factors })
  | .angle degrees => some (r.place fun g => { g with angle := degrees })
  | .toggleVisibility => some { r with visible := !r.visible }
  | .toggleLock => some { r with locked := !r.locked }

/-! ## New layers -/

/-- What an operation creates, if anything comes of it. -/
def EditorOp.creation? (s : Surroundings) (config : EditorConfig) (tool : Tool) :
    EditorOp → Option Creation
  | .createText point words => some (config.text point words)
  | .createBar point => some (config.bar point)
  | .createShape outline point => some (config.shape outline point)
  | .createImage point => (config.creation s point .image).toOption.join
  | .createRotator point => (config.creation s point .rotator).toOption.join
  | .create kind point => (config.creation s point kind).toOption.join
  | .place point =>
    tool.placementKind?.bind fun kind => (config.creation s point kind).toOption.join
  | .setTool _ | .delete _ | .reorder _ | .move .. | .select _ | .clearSelection | .edit ..
  | .setBackgroundPosition _ | .setBackgroundSize .. | .setBackdropColor _ => none

/-! ## Neighbours -/

/-- Exchange the first item that has a property with the one behind it. -/
def pushDown {α : Type} (has : α → Bool) : List α → List α
  | a :: b :: rest => if has a then b :: a :: rest else a :: pushDown has (b :: rest)
  | as => as

/-- Exchange the first item behind the head that has a property with the one before it. -/
def pullUp {α : Type} (has : α → Bool) : List α → List α
  | a :: b :: rest => if has b then b :: a :: rest else a :: pullUp has (b :: rest)
  | as => as

/-! ## Sheets -/

/-- A design without a canvas. -/
@[ext] structure Sheet where
  config : EditorConfig
  background : Background
  /-- The lowest layer first. -/
  records : List Record := []
  tool : Tool := .select
  /-- The number of the last identifier that was given. -/
  lastId : Nat := 0
  /-- How many layers of a kind have been named. -/
  named : LayerKind → Nat := fun _ => 0
  /-- The number of the last object that was made. -/
  lastHandle : Nat := 0

namespace Sheet

/-- An empty sheet. -/
def new (config : EditorConfig) : Sheet :=
  { config, background := config.background }

/-- The identifiers of the records, the lowest first. -/
def order (p : Sheet) : List LayerId :=
  p.records.map fun r => r.id

/-- The record with an identifier. -/
def record? (p : Sheet) (id : LayerId) : Option Record :=
  p.records.find? fun r => r.id = id

/-- A sheet as it is saved and compiled. -/
def snapshot (p : Sheet) : Snapshot :=
  ⟨p.background, p.records.map Record.snapshot⟩

/-- The record of the layer that comes next. -/
def nextRecord (p : Sheet) (new : Creation) : Record where
  id := ⟨p.lastId + 1⟩
  name := new.payload.kind.label ++ toString (p.named new.payload.kind + 1)
  measure := Catalog.defaultFor? new.payload.kind
  payload := new.payload
  handle := ⟨p.lastHandle + 1⟩
  geometry := new.geometry

/-- Append a new layer, if there is one. -/
def append (p : Sheet) : Option Creation → Sheet
  | some new =>
    { p with
      records := p.records ++ [p.nextRecord new]
      lastId := p.lastId + 1
      named := fun kind => p.named kind + if kind = new.payload.kind then 1 else 0
      lastHandle := p.lastHandle + 1 }
  | none => p

/-- Rewrite the records that have a property. -/
def rewrite (p : Sheet) (has : Record → Bool) (f : Record → Record) : Sheet :=
  { p with records := p.records.map fun r => if has r then f r else r }

/-- What an operation does to a sheet. -/
def apply (s : Surroundings) (p : Sheet) (op : EditorOp) : Sheet :=
  match op with
  | .createText .. | .createBar _ | .createShape .. | .createImage _ | .createRotator _
  | .create .. => p.append (op.creation? s p.config p.tool)
  | .place _ => { p with tool := .select }.append (op.creation? s p.config p.tool)
  | .setTool tool => { p with tool }
  | .delete id => { p with records := p.records.filter fun r => r.id ≠ id }
  | .reorder order =>
    if order.Perm p.order then { p with records := order.filterMap p.record? } else p
  | .move id .up => { p with records := pullUp (fun r => r.id = id) p.records }
  | .move id .down => { p with records := pushDown (fun r => r.id = id) p.records }
  | .select _ | .clearSelection => p
  | .edit id change =>
    if change.check.isOk then
      p.rewrite (fun r => r.id = id) fun r => (change.revise? s r).getD r
    else p
  | .setBackgroundPosition position => { p with background := { p.background with position } }
  | .setBackgroundSize width height =>
    if !(width.isFinite && height.isFinite) || width ≤ 0 || height ≤ 0 then p
    else { p with background := { p.background with width, height } }
  | .setBackdropColor backdropColor =>
    { p with background := { p.background with backdropColor } }

/-- What an event does to a sheet. -/
def after (p : Sheet) : Event → Sheet
  | .operation s op => p.apply s op
  | .drag h position =>
    p.rewrite (fun r => r.handle = h) (Record.place · fun g => { g with position })

/-- The sheet after a history. -/
def run (p : Sheet) (events : List Event) : Sheet :=
  events.foldl after p

theorem run_concat (p : Sheet) (events : List Event) (event : Event) :
    p.run (events ++ [event]) = (p.run events).after event :=
  List.foldl_append

end Sheet

end WidgetSkin
