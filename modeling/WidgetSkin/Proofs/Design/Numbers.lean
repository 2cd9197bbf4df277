import Mathlib.Logic.Equiv.Defs
import WidgetSkin.Design.Document

/-!
# The numbers of a design

The doubles that a value holds, and the value with each of them put through a function that may
fail. A record holds the doubles of its fields: it is taken for the tuple of them, so that no
field can be missed.

## Main definitions

* `HasNumbers` — a type whose values hold doubles.
* `HasNumbers.ofEquiv` — a type taken for another.
* `HasNumbers.Replaceable` — a type whose values are replaced if all of their doubles are.

## Main statements

* `HasNumbers.mapNumbers?_eq_none` — one double without a replacement leaves the value without
  one.
* `HasNumbers.mapNumbers?_eq_self_iff` — a value is kept exactly if all of its doubles are.
* `HasNumbers.mapNumbers?_eq_none_iff` — a value is without a replacement exactly if one of its
  doubles is.
-/

namespace WidgetSkin

/-- A type whose values hold doubles. -/
class HasNumbers (α : Type) where
  /-- The doubles of a value. -/
  numbers : α → List Float
  /-- The value with its doubles replaced, if all of them have a replacement. -/
  mapNumbers? (f : Float → Option Float) : α → Option α
  mapNumbers?_eq_self {f : Float → Option Float} {a : α} :
    (∀ x ∈ numbers a, f x = some x) → mapNumbers? f a = some a
  map_numbers {f : Float → Option Float} {a b : α} :
    mapNumbers? f a = some b → (numbers a).map f = (numbers b).map some

namespace HasNumbers

variable {α β : Type} {f : Float → Option Float}

theorem mapNumbers?_eq_none [HasNumbers α] {a : α} {x : Float} (hx : x ∈ numbers a)
    (h : f x = none) : mapNumbers? f a = none := by
  rw [Option.eq_none_iff_forall_ne_some]
  intro b hb
  have hmem : none ∈ (numbers b).map some := by
    rw [← map_numbers hb, ← h]
    exact List.mem_map_of_mem hx
  simp at hmem

theorem mapNumbers?_eq_self_iff [HasNumbers α] {a : α} :
    mapNumbers? f a = some a ↔ ∀ x ∈ numbers a, f x = some x := by
  refine ⟨fun h => ?_, mapNumbers?_eq_self⟩
  exact List.map_inj_left.1 (map_numbers h)

/-! ## Doubles, and values without any -/

instance : HasNumbers Float where
  numbers x := [x]
  mapNumbers? f x := f x
  mapNumbers?_eq_self h := h _ (List.mem_singleton_self _)
  map_numbers h := by simp [h]

/-- No doubles at all. -/
@[reducible] def without (α : Type) : HasNumbers α where
  numbers _ := []
  mapNumbers? _ a := some a
  mapNumbers?_eq_self _ := rfl
  map_numbers _ := rfl

instance : HasNumbers String := without String
instance : HasNumbers (Option String) := without (Option String)
instance : HasNumbers Bool := without Bool
instance : HasNumbers UInt32 := without UInt32
instance : HasNumbers UInt64 := without UInt64
instance : HasNumbers Outline := without Outline

@[simp] theorem mapNumbers?_without (a : α) : @mapNumbers? α (without α) f a = some a := rfl

@[simp] theorem mapNumbers?_float (x : Float) : mapNumbers? f x = f x := rfl

/-! ## Tuples, lists and choices -/

instance [HasNumbers α] [HasNumbers β] : HasNumbers (α × β) where
  numbers p := numbers p.1 ++ numbers p.2
  mapNumbers? f p := do return (← mapNumbers? f p.1, ← mapNumbers? f p.2)
  mapNumbers?_eq_self h := by
    rw [List.forall_mem_append] at h
    simp [mapNumbers?_eq_self h.1, mapNumbers?_eq_self h.2]
  map_numbers {f p q} h := by
    simp only [Option.bind_eq_bind, Option.bind_eq_some_iff, Option.pure_def,
      Option.some.injEq] at h
    obtain ⟨a, ha, b, hb, rfl⟩ := h
    simp [map_numbers ha, map_numbers hb]

@[simp] theorem mapNumbers?_pair [HasNumbers α] [HasNumbers β] (a : α) (b : β) :
    mapNumbers? f (a, b) =
      (mapNumbers? f a).bind fun a => (mapNumbers? f b).bind fun b => some (a, b) := rfl

instance [HasNumbers α] : HasNumbers (List α) where
  numbers as := as.flatMap numbers
  mapNumbers? f as := as.mapM (mapNumbers? f)
  mapNumbers?_eq_self {f as} h := by
    induction as with
    | nil => rfl
    | cons a as ih =>
      rw [List.flatMap_cons, List.forall_mem_append] at h
      simp [mapNumbers?_eq_self h.1, ih h.2]
  map_numbers {f as bs} h := by
    induction as generalizing bs with
    | nil =>
      obtain rfl : [] = bs := by simpa using h
      rfl
    | cons a as ih =>
      simp only [List.mapM_cons, Option.bind_eq_bind, Option.bind_eq_some_iff, Option.pure_def,
        Option.some.injEq] at h
      obtain ⟨b, hb, bs, hbs, rfl⟩ := h
      simp [map_numbers hb, ih hbs]

instance [HasNumbers α] [HasNumbers β] : HasNumbers (α ⊕ β) where
  numbers := Sum.elim numbers numbers
  mapNumbers? f := Sum.elim (fun a => .inl <$> mapNumbers? f a) (fun b => .inr <$> mapNumbers? f b)
  mapNumbers?_eq_self {f s} h := by
    cases s <;> simpa using mapNumbers?_eq_self h
  map_numbers {f s t} h := by
    cases s with
    | inl a =>
      obtain ⟨a', ha, rfl⟩ := Option.map_eq_some_iff.1 h
      exact map_numbers ha
    | inr b =>
      obtain ⟨b', hb, rfl⟩ := Option.map_eq_some_iff.1 h
      exact map_numbers hb

@[simp] theorem mapNumbers?_inl [HasNumbers α] [HasNumbers β] (a : α) :
    mapNumbers? f (.inl a : α ⊕ β) = (mapNumbers? f a).map .inl := rfl

@[simp] theorem mapNumbers?_inr [HasNumbers α] [HasNumbers β] (b : β) :
    mapNumbers? f (.inr b : α ⊕ β) = (mapNumbers? f b).map .inr := rfl

/-- A type taken for another one. -/
@[reducible] def ofEquiv [HasNumbers β] (e : α ≃ β) : HasNumbers α where
  numbers a := numbers (e a)
  mapNumbers? f a := e.symm <$> mapNumbers? f (e a)
  mapNumbers?_eq_self h := by simp [mapNumbers?_eq_self h]
  map_numbers h := by
    obtain ⟨b, hb, rfl⟩ := Option.map_eq_some_iff.1 h
    simp [map_numbers hb]

theorem mapNumbers?_ofEquiv [HasNumbers β] (e : α ≃ β) (a : α) :
    @mapNumbers? α (ofEquiv e) f a = e.symm <$> mapNumbers? f (e a) := rfl

end HasNumbers

/-! ## Parts of a design -/

instance : HasNumbers Point := .ofEquiv
  ⟨fun p => (p.x, p.y), fun (x, y) => ⟨x, y⟩, fun _ => rfl, fun _ => rfl⟩

instance : HasNumbers Size := .ofEquiv
  ⟨fun s => (s.width, s.height), fun (w, h) => ⟨w, h⟩, fun _ => rfl, fun _ => rfl⟩

instance : HasNumbers Scale := .ofEquiv
  ⟨fun s => (s.x, s.y), fun (x, y) => ⟨x, y⟩, fun _ => rfl, fun _ => rfl⟩

instance : HasNumbers Geometry := .ofEquiv
  ⟨fun g => (g.position, g.size, g.scale, g.angle),
    fun (position, size, scale, angle) => ⟨position, size, scale, angle⟩,
    fun _ => rfl, fun _ => rfl⟩

instance : HasNumbers Fill := .ofEquiv
  ⟨fun f => (f.color, f.opacity), fun (color, opacity) => ⟨color, opacity⟩,
    fun _ => rfl, fun _ => rfl⟩

instance : HasNumbers TextContent := .ofEquiv
  ⟨fun c => (c.text, c.fontName, c.fontSize, c.fill),
    fun (text, fontName, fontSize, fill) => ⟨text, fontName, fontSize, fill⟩,
    fun _ => rfl, fun _ => rfl⟩

instance : HasNumbers Needle := .ofEquiv
  ⟨fun n => (n.source, n.offsetX, n.offsetY, n.startAngle, n.rotationAngle),
    fun (source, offsetX, offsetY, startAngle, rotationAngle) =>
      ⟨source, offsetX, offsetY, startAngle, rotationAngle⟩,
    fun _ => rfl, fun _ => rfl⟩

instance : HasNumbers BarContent := .ofEquiv
  ⟨fun c => (c.background, c.foreground), fun (background, foreground) => ⟨background, foreground⟩,
    fun _ => rfl, fun _ => rfl⟩

instance : HasNumbers ShapeContent := .ofEquiv
  ⟨fun c => (c.outline, c.fill), fun (outline, fill) => ⟨outline, fill⟩, fun _ => rfl, fun _ => rfl⟩

/-- A content is one of five. -/
def Payload.equivSum :
    Payload ≃ TextContent ⊕ String ⊕ Needle ⊕ BarContent ⊕ ShapeContent where
  toFun
    | .text c => .inl c
    | .image source => .inr (.inl source)
    | .rotator n => .inr (.inr (.inl n))
    | .bar c => .inr (.inr (.inr (.inl c)))
    | .shape c => .inr (.inr (.inr (.inr c)))
  invFun
    | .inl c => .text c
    | .inr (.inl source) => .image source
    | .inr (.inr (.inl n)) => .rotator n
    | .inr (.inr (.inr (.inl c))) => .bar c
    | .inr (.inr (.inr (.inr c))) => .shape c
  left_inv p := by cases p <;> rfl
  right_inv s := by rcases s with _ | _ | _ | _ | _ <;> rfl

instance : HasNumbers Payload := .ofEquiv Payload.equivSum

instance : HasNumbers LayerSnapshot := .ofEquiv
  ⟨fun l => (l.id, l.name, l.measure, l.payload, l.geometry, l.visible, l.locked),
    fun (id, name, measure, payload, geometry, visible, locked) =>
      ⟨id, name, measure, payload, geometry, visible, locked⟩,
    fun _ => rfl, fun _ => rfl⟩

instance : HasNumbers Background := .ofEquiv
  ⟨fun b => (b.position, b.width, b.height, b.backdropColor),
    fun (position, width, height, backdropColor) => ⟨position, width, height, backdropColor⟩,
    fun _ => rfl, fun _ => rfl⟩

instance : HasNumbers Metadata := .ofEquiv
  ⟨fun m => (m.name, m.author, m.version, m.description),
    fun (name, author, version, description) => ⟨name, author, version, description⟩,
    fun _ => rfl, fun _ => rfl⟩

instance : HasNumbers Settings := .ofEquiv
  ⟨fun s => (s.updateMs, s.fontScaleCorrection, s.scrollIncrement, s.minScale, s.defaultSkinName,
      s.skinFileName),
    fun (updateMs, fontScaleCorrection, scrollIncrement, minScale, defaultSkinName,
      skinFileName) =>
      ⟨updateMs, fontScaleCorrection, scrollIncrement, minScale, defaultSkinName, skinFileName⟩,
    fun _ => rfl, fun _ => rfl⟩

instance : HasNumbers Design := .ofEquiv
  ⟨fun d => (d.metadata, d.background, d.layers, d.allowScrollResize, d.settings),
    fun (metadata, background, layers, allowScrollResize, settings) =>
      ⟨metadata, background, layers, allowScrollResize, settings⟩,
    fun _ => rfl, fun _ => rfl⟩

/-! ## Values without a replacement -/

namespace HasNumbers

/-- A type whose values have a replacement as soon as all of their doubles have one. -/
class Replaceable (α : Type) [HasNumbers α] : Prop where
  mapNumbers?_ne_none {f : Float → Option Float} {a : α} :
    (∀ x ∈ numbers a, f x ≠ none) → mapNumbers? f a ≠ none

variable {α β : Type} {f : Float → Option Float}

/-- A value is without a replacement exactly if one of its doubles is. -/
theorem mapNumbers?_eq_none_iff [HasNumbers α] [Replaceable α] {a : α} :
    mapNumbers? f a = none ↔ ∃ x ∈ numbers a, f x = none := by
  refine ⟨fun h => ?_, fun ⟨x, hx, h⟩ => mapNumbers?_eq_none hx h⟩
  by_contra hall
  exact Replaceable.mapNumbers?_ne_none (fun x hx hnone => hall ⟨x, hx, hnone⟩) h

instance : Replaceable Float where
  mapNumbers?_ne_none h := h _ (List.mem_singleton_self _)

theorem Replaceable.without : @Replaceable α (.without α) :=
  letI := HasNumbers.without α
  ⟨fun _ => Option.some_ne_none _⟩

instance : Replaceable String := .without
instance : Replaceable (Option String) := .without
instance : Replaceable Bool := .without
instance : Replaceable UInt32 := .without
instance : Replaceable UInt64 := .without
instance : Replaceable Outline := .without

instance [HasNumbers α] [HasNumbers β] [Replaceable α] [Replaceable β] : Replaceable (α × β) where
  mapNumbers?_ne_none {f p} h := by
    obtain ⟨ha, hb⟩ := List.forall_mem_append.1 h
    obtain ⟨a, ha⟩ := Option.ne_none_iff_exists'.1 (Replaceable.mapNumbers?_ne_none ha)
    obtain ⟨b, hb⟩ := Option.ne_none_iff_exists'.1 (Replaceable.mapNumbers?_ne_none hb)
    obtain ⟨p, q⟩ := p
    simp [ha, hb]

instance [HasNumbers α] [Replaceable α] : Replaceable (List α) where
  mapNumbers?_ne_none {f as} h := by
    change as.mapM (mapNumbers? f) ≠ none
    induction as with
    | nil => exact Option.some_ne_none _
    | cons a as ih =>
      obtain ⟨ha, has⟩ := List.forall_mem_append.1 h
      obtain ⟨b, hb⟩ := Option.ne_none_iff_exists'.1 (Replaceable.mapNumbers?_ne_none ha)
      obtain ⟨bs, hbs⟩ := Option.ne_none_iff_exists'.1 (ih has)
      simp [hb, hbs]

instance [HasNumbers α] [HasNumbers β] [Replaceable α] [Replaceable β] : Replaceable (α ⊕ β) where
  mapNumbers?_ne_none {f s} h := by
    cases s with
    | inl a => simpa using Replaceable.mapNumbers?_ne_none (a := a) h
    | inr b => simpa using Replaceable.mapNumbers?_ne_none (a := b) h

theorem Replaceable.ofEquiv [HasNumbers β] [Replaceable β] (e : α ≃ β) :
    @Replaceable α (.ofEquiv e) :=
  letI := HasNumbers.ofEquiv e
  ⟨fun h => by simpa [mapNumbers?_ofEquiv] using Replaceable.mapNumbers?_ne_none (α := β) h⟩

end HasNumbers

section Replaceable

open HasNumbers

instance : Replaceable Point := .ofEquiv _
instance : Replaceable Size := .ofEquiv _
instance : Replaceable Scale := .ofEquiv _
instance : Replaceable Geometry := .ofEquiv _
instance : Replaceable Fill := .ofEquiv _
instance : Replaceable TextContent := .ofEquiv _
instance : Replaceable Needle := .ofEquiv _
instance : Replaceable BarContent := .ofEquiv _
instance : Replaceable ShapeContent := .ofEquiv _
instance : Replaceable Payload := .ofEquiv _
instance : Replaceable LayerSnapshot := .ofEquiv _
instance : Replaceable Background := .ofEquiv _
instance : Replaceable Metadata := .ofEquiv _
instance : Replaceable Settings := .ofEquiv _
instance : Replaceable Design := .ofEquiv _

end Replaceable

end WidgetSkin
