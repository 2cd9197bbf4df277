import WidgetSkin.Proofs.Editor.Sources
import WidgetSkin.Proofs.Image.Pixels

/-!
# Boxes of raster layers

A raster layer shows its file in the box of the file. An editor takes both when it creates the
layer and when it gives it another file, and nothing else touches them: to show an image in
another box, it scales the geometry, which works because the box that it has is positive. Layers
of the other kinds are given the box itself.

## Main definitions

* `Surroundings.NoneEmpty` — no image that is measured is empty.
* `Editor.sourced?` — what an event gives to a layer.

## Main statements

* `Surroundings.noneEmpty_of_files` — image files are never empty.
* `EditorOp.sourcing?_of_creation?` — what a new layer is given.
* `Editor.InStep.sourced?_eq` — what is given is what the sheet says.
* `Editor.shows_run` — what raster layers show after a history.
* `Editor.raster_boxes_run` — files and boxes over a whole history.
-/

namespace WidgetSkin

/-- No image that is measured is empty. -/
def Surroundings.NoneEmpty (s : Surroundings) : Prop :=
  ∀ path size, s.imageSize? path = some size → size.isPositive = true

/-- No image that an event measures is empty. -/
def Event.NoneEmpty : Event → Prop
  | .operation s _ => s.NoneEmpty
  | .drag .. => True

/-- No image file is empty. -/
theorem Surroundings.noneEmpty_of_files (pick : LayerKind → Except Fault (Option String))
    (files : FileTree) : NoneEmpty ⟨pick, WidgetSkin.imageSize? files⟩ :=
  fun _ _ h => (inPixels_of_imageSize? h).isPositive

namespace EditorConfig

variable {c : EditorConfig} {s : Surroundings} {new : Creation}

/-- The file for a new layer of a kind: an image is picked, and a needle if none is configured. -/
def file? (c : EditorConfig) (s : Surroundings) : LayerKind → Option String
  | .image => (s.pick .image).toOption.join
  | .rotator => (c.needle s).toOption.join
  | .text | .bar | .shape => none

/-- What a new layer of a kind is given. -/
def sourcing? (c : EditorConfig) (s : Surroundings) (id : LayerId) (kind : LayerKind) :
    Option Sourcing := do
  let path ← c.file? s kind
  let size ← s.imageSize? path
  return ⟨id, path, size⟩

theorem sourcing?_of_imageSize {id : LayerId} {kind : LayerKind} {path : String} {size : Size}
    (hfile : c.file? s kind = some path) (hsize : s.imageSize path = .ok size) :
    c.sourcing? s id kind = some ⟨id, path, size⟩ := by
  rw [sourcing?, hfile, Option.bind_eq_bind, Option.bind_some,
    Surroundings.imageSize_eq_ok_iff.1 hsize]
  rfl

/-- A new layer shows what it is given. -/
theorem sourcing?_of_creation {point : Point} {kind : LayerKind}
    (h : c.creation s point kind = .ok (some new)) (id : LayerId) :
    c.sourcing? s id kind = new.sourcing? id := by
  cases kind with
  | text | bar | shape =>
    cases h
    rfl
  | image | rotator =>
    obtain ⟨source?, hpick, h⟩ := bind_eq_ok_iff.1 h
    cases source? with
    | none => cases h
    | some source =>
      obtain ⟨size, hsize, h⟩ := bind_eq_ok_iff.1 h
      cases h
      refine sourcing?_of_imageSize ?_ hsize
      rw [file?, hpick]
      rfl

end EditorConfig

namespace EditorOp

/-- The kind of the layer that an operation is to create. -/
def kind? (tool : Tool) : EditorOp → Option LayerKind
  | .createText .. => some .text
  | .createBar _ => some .bar
  | .createShape .. => some .shape
  | .createImage _ => some .image
  | .createRotator _ => some .rotator
  | .create kind _ => some kind
  | .place _ => tool.placementKind?
  | .setTool _ | .delete _ | .reorder _ | .move .. | .select _ | .clearSelection | .edit ..
  | .setBackgroundPosition _ | .setBackgroundSize .. | .setBackdropColor _ => none

theorem sourcing?_of_creation? {s : Surroundings} {c : EditorConfig} {tool : Tool} {op : EditorOp}
    {new : Creation} (h : op.creation? s c tool = some new) (id : LayerId) :
    (op.kind? tool).bind (c.sourcing? s id) = new.sourcing? id := by
  have hcreation : ∀ {point kind}, (c.creation s point kind).toOption.join = some new →
      c.sourcing? s id kind = new.sourcing? id := fun h =>
    EditorConfig.sourcing?_of_creation (toOption_eq_some_iff.1 (Option.join_eq_some_iff.1 h)) id
  cases op with
  | createText _ _ | createBar _ | createShape _ _ =>
    cases h
    rfl
  | createImage _ | createRotator _ | create _ _ => exact hcreation h
  | place point =>
    obtain ⟨kind, hkind, h⟩ := Option.bind_eq_some_iff.1 h
    rw [kind?, hkind]
    exact hcreation h
  | setTool _ | delete _ | reorder _ | move _ _ | select _ | clearSelection | edit _ _
  | setBackgroundPosition _ | setBackgroundSize _ _ | setBackdropColor _ => cases h

end EditorOp

namespace Editor

/-- What an event gives to a layer: its file when it is created, and another one when it is
edited, if the edit succeeds. -/
def sourced? (e : Editor) : Event → Option Sourcing
  | .operation s (.edit id (.imageSource path)) =>
    if (e.step s (.edit id (.imageSource path))).result.isOk then
      (s.imageSize? path).map fun size => ⟨id, path, size⟩
    else none
  | .operation s op =>
    (Answer.created? (e.step s op).result).bind fun id =>
      (op.kind? e.tool).bind (e.config.sourcing? s id)
  | .drag .. => none

/-- Layers are given files as they are measured. -/
theorem isPositive_of_sourced? {e : Editor} {event : Event} (h : event.NoneEmpty) {x : Sourcing}
    (hx : e.sourced? event = some x) : x.size.isPositive = true := by
  unfold sourced? at hx
  split at hx
  · split at hx
    · obtain ⟨size, hsize, rfl⟩ := Option.map_eq_some_iff.1 hx
      exact h _ _ hsize
    · cases hx
  · obtain ⟨id, -, hx⟩ := Option.bind_eq_some_iff.1 hx
    obtain ⟨kind, -, hx⟩ := Option.bind_eq_some_iff.1 hx
    obtain ⟨path, -, hx⟩ := Option.bind_eq_some_iff.1 hx
    obtain ⟨size, hsize, hx⟩ := Option.bind_eq_some_iff.1 hx
    cases hx
    exact h _ _ hsize
  · cases hx

theorem isPositive_of_mem_notes {e : Editor} {events : List Event}
    (h : ∀ event ∈ events, event.NoneEmpty) :
    ∀ x ∈ notes sourced? e events, x.size.isPositive = true := by
  induction events generalizing e with
  | nil => exact List.forall_mem_nil _
  | cons event events ih =>
    obtain ⟨hfirst, hrest⟩ := List.forall_mem_cons.1 h
    rw [notes, List.forall_mem_append]
    exact ⟨fun x hx => isPositive_of_sourced? hfirst (Option.mem_toList.1 hx), ih hrest⟩

namespace InStep

variable {e : Editor} {event : Event} {l : Layer} {past : List Sourcing}

theorem sourced?_imageSource (he : e.InStep) (s : Surroundings) (id : LayerId) (path : String) :
    e.sourced? (.operation s (.edit id (.imageSource path))) =
      e.sheet.sourced? (.operation s (.edit id (.imageSource path))) := by
  rw [sourced?, Sheet.sourced?, he.step_result, EditorOp.outcome, LayerEdit.outcome, record?_sheet]
  cases hfound : e.layer? id with
  | none =>
    rw [requireLayer, hfound]
    rfl
  | some l =>
    obtain ⟨hl, rfl⟩ := mem_of_layer? hfound
    obtain ⟨g, -, hg⟩ := he.geometry_eq hl
    have hkind : (e.recordOf l).kind = l.kind := rfl
    rw [requireLayer_eq_ok_iff.2 hfound, hg, Option.map_some, Option.filter_some, hkind,
      LayerEdit.check, ok_bind, ok_bind, ok_bind, LayerEdit.rewrite, LayerChange.ofImage,
      Surroundings.imageSize]
    cases l.kind.isRaster with
    | false => rfl
    | true => cases s.imageSize? path <;> rfl

/-- What an event gives to a layer is what the sheet says. -/
theorem sourced?_eq (he : e.InStep) (event : Event) :
    e.sourced? event = e.sheet.sourced? event := by
  cases event with
  | drag k point => rfl
  | operation s op =>
    have hcreated : ((Answer.created? (e.step s op).result).bind fun id =>
        (op.kind? e.tool).bind (e.config.sourcing? s id)) =
          (e.sheet.newborn? (.operation s op)).bind Record.sourcing? := by
      have hcreation : e.sheet.creation? (.operation s op) = op.creation? s e.config e.tool := rfl
      rw [he.step_result, EditorOp.created?_outcome, Sheet.newborn?, hcreation]
      cases hnew : op.creation? s e.config e.tool with
      | none => rfl
      | some new => exact EditorOp.sourcing?_of_creation? hnew ⟨e.lastId + 1⟩
    cases op with
    | edit id change =>
      cases change with
      | imageSource path => exact he.sourced?_imageSource s id path
      | _ => exact hcreated
    | _ => exact hcreated

/-- A layer is given a file when it is created, or by an edit of its own. -/
theorem sourced?_id_ne (he : e.InStep) (hl : l ∈ e.layers)
    (hedit : ∀ s path, event = .operation s (.edit l.id (.imageSource path)) →
      (e.step s (.edit l.id (.imageSource path))).result.isOk = false) :
    ∀ x, e.sourced? event = some x → x.id ≠ l.id := by
  intro x hx
  unfold sourced? at hx
  split at hx
  · next s id path =>
    split at hx
    · next hok =>
      obtain ⟨size, -, rfl⟩ := Option.map_eq_some_iff.1 hx
      rintro rfl
      rw [hedit s path rfl] at hok
      cases hok
    · cases hx
  · next s op _ =>
    obtain ⟨id, hid, hx⟩ := Option.bind_eq_some_iff.1 hx
    obtain ⟨kind, -, hx⟩ := Option.bind_eq_some_iff.1 hx
    obtain ⟨path, -, hx⟩ := Option.bind_eq_some_iff.1 hx
    obtain ⟨size, -, hx⟩ := Option.bind_eq_some_iff.1 hx
    cases hx
    have hgiven := he.given?_eq (.operation s op)
    rw [given?, hid] at hgiven
    obtain ⟨_, -, hnext⟩ := Option.map_eq_some_iff.1 hgiven.symm
    have hle := he.id_le_lastId l hl
    intro heq
    rw [← heq, ← hnext] at hle
    exact Nat.not_succ_le_self _ hle
  · cases hx

/-- A layer that was last given a file shows it, and so does its object, in the size of the
file. -/
theorem object?_of_last? (he : e.InStep) (h : e.sheet.Shows past) (hl : l ∈ e.layers)
    {x : Sourcing} (hx : Sourcing.last? l.id past = some x) :
    l.payload.imageSource? = some x.path ∧
      ∃ g, e.canvas.object? l.handle = some (l.objectAt g) ∧ g.size = x.size := by
  obtain ⟨g, hobject, hg⟩ := he.geometry_eq hl
  have hshown := h.sourcing?_eq (e.recordOf l) (List.mem_map_of_mem hl)
  rw [recordOf_id, hx, he.recordOf_eq hl hg] at hshown
  obtain ⟨path, hpath, rfl⟩ := Option.map_eq_some_iff.1 hshown
  exact ⟨hpath, g, hobject, rfl⟩

theorem id_le_of_mem_records (he : e.InStep) :
    ∀ r ∈ e.sheet.records, r.id.val ≤ e.sheet.lastId := by
  intro r hr
  obtain ⟨l, hl, rfl⟩ := List.mem_map.1 hr
  exact he.id_le_lastId l hl

/-- A record has the geometry of its layer. -/
theorem geometry_of_mem_records (he : e.InStep) {r : Record} (hr : r ∈ e.sheet.records) :
    e.geometry r.id = .ok r.geometry := by
  obtain ⟨l, hl, rfl⟩ := List.mem_map.1 hr
  obtain ⟨g, -, hg⟩ := he.geometry_eq hl
  rw [recordOf_id, hg, he.recordOf_eq hl hg]
  rfl

/-- The box of a layer that is resized. -/
theorem geometry_of_size (he : e.InStep) (hl : l ∈ e.layers) {g : Geometry}
    (hg : e.geometry l.id = .ok g) {s : Surroundings} {box : Size}
    (hok : (e.step s (.edit l.id (.size box))).result.isOk = true) :
    (e.step s (.edit l.id (.size box))).editor.geometry l.id =
      .ok (Edit.resized l.kind.isRaster box g) := by
  obtain ⟨answer, hanswer⟩ := exists_eq_ok_of_isOk hok
  rw [he.step_result] at hanswer
  obtain ⟨result, houtcome, -⟩ := map_eq_ok_iff.1 hanswer
  obtain ⟨_, hcheck, -⟩ := bind_eq_ok_iff.1 houtcome
  have hsheet : (e.step s (.edit l.id (.size box))).editor.sheet =
      e.sheet.apply s (.edit l.id (.size box)) := he.sheet_after (.operation s _)
  have hrecord : l.recordAt (Edit.resized l.kind.isRaster box g) ∈
      (e.step s (.edit l.id (.size box))).editor.sheet.records := by
    rw [hsheet, Sheet.apply, hcheck]
    refine List.mem_map.2 ⟨l.recordAt g, ?_, ?_⟩
    · exact he.recordOf_eq hl hg ▸ List.mem_map_of_mem hl
    · exact if_pos (decide_eq_true rfl)
  exact (he.step s _).geometry_of_mem_records hrecord

end InStep

/-- After every history the raster layers show what they were last given. -/
theorem shows_run (config : EditorConfig) {events : List Event}
    (h : ∀ event ∈ events, event.NoneEmpty) :
    ((Editor.new config).run events).sheet.Shows (notes sourced? (Editor.new config) events) := by
  induction events using List.reverseRecOn with
  | nil => exact ⟨List.forall_mem_nil _, List.forall_mem_nil _⟩
  | append_singleton events event ih =>
    have he := inStep_run config events
    obtain ⟨hpast, -⟩ := List.forall_mem_append.1 h
    rw [run_concat, notes_concat, he.sourced?_eq, he.sheet_after]
    exact (ih hpast).after he.order_sheet_nodup he.id_le_of_mem_records
      (isPositive_of_mem_notes hpast) event

/-- Files and boxes over a whole history in which no empty image is measured. A raster layer was
given a file, and it shows the one that it was given last, in the layer and on the canvas, in a
box of the size that the file had then. No event changes that, but for an edit of the layer that
succeeds to give it another file. A box that is set with success scales the geometry of a raster
layer to it; any other layer is given the box itself, unscaled. -/
theorem raster_boxes_run (config : EditorConfig) (events : List Event)
    (hmeasured : ∀ event ∈ events, event.NoneEmpty) :
    let e := (Editor.new config).run events
    let past := notes sourced? (Editor.new config) events
    (∀ l ∈ e.layers, l.kind.isRaster = true →
      ∃ x o, Sourcing.last? l.id past = some x ∧ l.payload.imageSource? = some x.path ∧
        e.canvas.object? l.handle = some o ∧ o.payload.imageSource? = some x.path ∧
        o.geometry.size = x.size) ∧
    (∀ event, ∀ l ∈ e.layers, l.kind.isRaster = true →
      (∀ s path, event = .operation s (.edit l.id (.imageSource path)) →
        (e.step s (.edit l.id (.imageSource path))).result.isOk = false) →
      ∀ m ∈ (e.after event).layers, m.id = l.id →
        m.payload.imageSource? = l.payload.imageSource? ∧
        ∃ o o', e.canvas.object? l.handle = some o ∧
          (e.after event).canvas.object? m.handle = some o' ∧
          o'.payload.imageSource? = o.payload.imageSource? ∧ o'.geometry.size = o.geometry.size) ∧
    ∀ l ∈ e.layers, ∀ s box g, e.geometry l.id = .ok g →
      (e.step s (.edit l.id (.size box))).result.isOk = true →
      (e.step s (.edit l.id (.size box))).editor.geometry l.id =
        .ok (if l.kind.isRaster then { g with scale := g.size.scaleTo box }
          else { g with size := box, scale := .unit }) := by
  intro e past
  have he : e.InStep := inStep_run config events
  have hshows : e.sheet.Shows past := shows_run config hmeasured
  have hpositive : ∀ x ∈ past, x.size.isPositive = true := isPositive_of_mem_notes hmeasured
  have hgiven : ∀ l ∈ e.layers, l.kind.isRaster = true →
      ∃ x, Sourcing.last? l.id past = some x := fun l hl hraster =>
    hshows.exists_last? (r := e.recordOf l) (List.mem_map_of_mem hl) hraster
  refine ⟨fun l hl hraster => ?_, fun event l hl hraster hedit m hm hid => ?_,
    fun l hl s box g hg hok => ?_⟩
  · obtain ⟨x, hx⟩ := hgiven l hl hraster
    obtain ⟨hpath, g, hobject, hsize⟩ := he.object?_of_last? hshows hl hx
    exact ⟨x, l.objectAt g, hx, hpath, hobject, hpath, hsize⟩
  · -- The layer was last given the same file before and after the event.
    obtain ⟨x, hx⟩ := hgiven l hl hraster
    have hafter : (e.after event).sheet.Shows (past ++ (e.sourced? event).toList) := by
      rw [he.sourced?_eq, he.sheet_after]
      exact hshows.after he.order_sheet_nodup he.id_le_of_mem_records hpositive event
    have hsame : Sourcing.last? m.id (past ++ (e.sourced? event).toList) = some x := by
      rw [hid, Sourcing.last?_append_of_ne (he.sourced?_id_ne hl hedit), hx]
    obtain ⟨hpath, g, hobject, hsize⟩ := he.object?_of_last? hshows hl hx
    obtain ⟨hpath', g', hobject', hsize'⟩ := (he.after event).object?_of_last? hafter hm hsame
    exact ⟨hpath'.trans hpath.symm, l.objectAt g, m.objectAt g', hobject, hobject',
      hpath'.trans hpath.symm, hsize'.trans hsize.symm⟩
  · rw [he.geometry_of_size hl hg hok, Edit.resized]
    cases hraster : l.kind.isRaster with
    | false => simp
    | true =>
      have hbox := hshows.isPositive_size hpositive (r := e.recordOf l)
        (List.mem_map_of_mem hl) hraster
      rw [he.recordOf_eq hl hg] at hbox
      exact congrArg Except.ok (if_pos ⟨rfl, hbox⟩)

/-- An image is picked, resized and dragged, then given a file that cannot be read and one that
can be. -/
theorem raster_boxes_run_of_wide_image :
    let s : Surroundings :=
      { pick := fun _ => .ok (some "dial.png")
        imageSize? := fun path => if path = "dial.png" then some ⟨64, 64⟩ else
          if path = "wide.png" then some ⟨100, 20⟩ else none }
    let events : List Event :=
      [.operation s (.createImage ⟨10, 20⟩), .operation s (.edit ⟨1⟩ (.size ⟨128, 32⟩)),
        .drag ⟨1⟩ ⟨30, 40⟩, .operation s (.edit ⟨1⟩ (.imageSource "missing.png")),
        .operation s (.edit ⟨1⟩ (.imageSource "wide.png"))]
    let e := (Editor.new {}).run events
    (∀ event ∈ events, event.NoneEmpty) ∧
      ∃ l ∈ e.layers, l.kind.isRaster = true ∧ l.payload.imageSource? = some "wide.png" ∧
        ∃ o, e.canvas.object? l.handle = some o ∧ o.geometry.size = ⟨100, 20⟩ := by
  intro s events e
  have hs : s.NoneEmpty := by
    intro path size hsize
    simp only [s] at hsize
    split at hsize
    · cases hsize
      decide +kernel
    · split at hsize
      · cases hsize
        decide +kernel
      · cases hsize
  have hmeasured : ∀ event ∈ events, event.NoneEmpty := by
    simp [events, Event.NoneEmpty, hs]
  obtain ⟨l, hl, hid, hkind⟩ : ∃ l ∈ e.layers, l.id = ⟨1⟩ ∧ l.kind = .image := by
    decide +kernel
  have hraster : l.kind.isRaster = true := by rw [hkind]; rfl
  obtain ⟨x, o, hx, hpath, hobject, -, hsize⟩ :=
    (raster_boxes_run {} events hmeasured).1 l hl hraster
  have hlast : Sourcing.last? ⟨1⟩ (notes sourced? (Editor.new {}) events) =
      some ⟨⟨1⟩, "wide.png", ⟨100, 20⟩⟩ := by
    decide +kernel
  rw [hid, hlast] at hx
  cases hx
  exact ⟨hmeasured, l, hl, hraster, hpath, o, hobject, hsize⟩

end Editor

end WidgetSkin
