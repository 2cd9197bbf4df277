import Mathlib.Data.List.Nodup
import WidgetSkin.Canvas.View

/-!
# Handles of a canvas

The handles of a canvas are those that have an object on it. A handle is given once: new ones
come behind all others, and no operation brings a removed one back.

## Main definitions

* `Canvas.handles` — the handles of all objects.

## Main statements

* `Canvas.isLive_iff` — a handle is live if it is one of them.
* `Canvas.change_congr` — a change is known by what it does to the object.
* `Canvas.change_change`, `Canvas.change_comm` — changes one after another.
-/

namespace WidgetSkin

namespace Canvas

variable {c : Canvas} {h k : Handle} {o : CanvasObject} {f g : CanvasObject → CanvasObject}

/-- The handles of all objects, in the order in which they were given. -/
def handles (c : Canvas) : List Handle :=
  c.objects.map Prod.fst

theorem isLive_iff : c.isLive h = true ↔ h ∈ c.handles := by
  simp [isLive, object?, handles]

theorem object?_eq_none_iff : c.object? h = none ↔ h ∉ c.handles := by
  rw [← isLive_iff, isLive, Option.isSome_iff_ne_none, not_not]

theorem isLive_of_object? (ho : c.object? h = some o) : c.isLive h = true := by
  simp [isLive, ho]

theorem geometry?_of_object? (ho : c.object? h = some o) : c.geometry? h = some o.geometry :=
  congrArg (Option.map CanvasObject.geometry) ho

theorem geometry?_of_not_mem (hdead : h ∉ c.handles) : c.geometry? h = none :=
  congrArg (Option.map CanvasObject.geometry) (object?_eq_none_iff.2 hdead)

/-- In a list without double keys, every value is found under its key. -/
theorem lookup_eq_some_of_mem {α β : Type} [DecidableEq α] {os : List (α × β)} {k : α} {b : β}
    (hnodup : (os.map Prod.fst).Nodup) (hmem : (k, b) ∈ os) : os.lookup k = some b := by
  induction os with
  | nil => cases hmem
  | cons first rest ih =>
    rw [List.map_cons, List.nodup_cons] at hnodup
    rw [lookup_cons_pair]
    rcases List.mem_cons.1 hmem with rfl | hrest
    · simp
    · have hne : k ≠ first.1 := by
        rintro rfl
        exact hnodup.1 (List.mem_map.2 ⟨_, hrest, rfl⟩)
      rw [if_neg hne, ih hnodup.2 hrest]

/-- An object that lies on the canvas is the one of its handle. -/
theorem object?_eq_some_of_mem (hnodup : c.handles.Nodup) (hmem : (h, o) ∈ c.objects) :
    c.object? h = some o :=
  lookup_eq_some_of_mem hnodup hmem

/-! ## Operations -/

theorem handles_add (c : Canvas) (kind : LayerKind) (geometry : Geometry) (payload : Payload) :
    (c.add kind geometry payload).2.handles = c.handles ++ [⟨c.lastHandle + 1⟩] := by
  simp [add, handles]

theorem handles_remove (c : Canvas) (h : Handle) :
    (c.remove h).2.handles = c.handles.filter (· ≠ h) := by
  unfold remove
  split
  · simp [handles, List.filter_map, Function.comp_def]
  · next hdead =>
    have hmem : h ∉ c.handles := fun hmem => hdead (isLive_iff.2 hmem)
    refine (List.filter_eq_self.2 fun k hk => ?_).symm
    simpa using fun heq : k = h => hmem (heq ▸ hk)

@[simp] theorem handles_change (c : Canvas) (h : Handle) (f : CanvasObject → CanvasObject) :
    (c.change h f).handles = c.handles := by
  unfold handles change
  rw [List.map_map]
  exact List.map_congr_left fun o _ => by simp only [Function.comp_apply]; split <;> rfl

@[simp] theorem handles_setActive (c : Canvas) (active : Option Handle) :
    (c.setActive active).handles = c.handles := rfl

@[simp] theorem handles_restack (c : Canvas) (order : List Handle) :
    (c.restack order).handles = c.handles := rfl

/-- An object that lies on the canvas is taken from everything that refers to it. -/
theorem remove_of_mem (hmem : h ∈ c.handles) :
    (c.remove h).2 = { c with
      objects := c.objects.filter fun o => o.1 ≠ h
      stacking := c.stacking.filter (· ≠ h)
      active := c.active.filter (· ≠ h) } := by
  rw [remove, if_pos (isLive_iff.2 hmem)]

/-! ## Changes -/

/-- Two changes of an object that give the same are the same. -/
theorem change_congr (hnodup : c.handles.Nodup) (ho : c.object? h = some o) (hfg : f o = g o) :
    c.change h f = c.change h g := by
  unfold change
  congr 1
  refine List.map_congr_left fun entry hentry => ?_
  split
  · next heq =>
    -- Handles differ, so the entry under `h` holds the object that is found there.
    subst heq
    have hsame := object?_eq_some_of_mem hnodup hentry
    rw [ho, Option.some_inj] at hsame
    rw [← hsame, hfg]
  · rfl

/-- Two changes of one object in a row are one change. -/
theorem change_change (c : Canvas) (h : Handle) (f g : CanvasObject → CanvasObject) :
    (c.change h f).change h g = c.change h (g ∘ f) := by
  unfold change
  simp only [List.map_map]
  congr 1
  refine List.map_congr_left fun entry _ => ?_
  by_cases heq : entry.1 = h <;> simp [heq]

/-- Changes of two objects do not meet. -/
theorem change_comm (c : Canvas) (hne : h ≠ k) (f g : CanvasObject → CanvasObject) :
    (c.change h f).change k g = (c.change k g).change h f := by
  unfold change
  simp only [List.map_map]
  congr 1
  refine List.map_congr_left fun entry _ => ?_
  by_cases hh : entry.1 = h
  · simp [hh, hne]
  · by_cases hk : entry.1 = k <;> simp [hh, hk, hne.symm]

/-! ## Stacking and the active object -/

/-- An order of live handles is taken as it is. -/
theorem stacking_restack {order : List Handle} (hlive : ∀ h ∈ order, h ∈ c.handles) :
    (c.restack order).stacking = order :=
  List.filter_eq_self.2 fun h hh => isLive_iff.2 (hlive h hh)

theorem active_setActive_some (hlive : h ∈ c.handles) :
    (c.setActive (some h)).active = some h := by
  simp [setActive, isLive_iff.2 hlive]

/-- A new geometry is a change of the object, and every listener hears of it. -/
theorem setGeometry_of_object? (ho : c.object? h = some o) (geometry : Geometry) :
    c.setGeometry h geometry =
      (c.notices h geometry, c.change h fun o => { o with geometry }) := by
  rw [setGeometry, if_pos (isLive_of_object? ho)]

/-- A listener hears once of every change of a geometry. -/
theorem countP_notices {listener : Nat} (hlt : listener < c.listeners) (h : Handle)
    (geometry : Geometry) :
    (c.notices h geometry).countP (fun n => n.listener = listener) = 1 := by
  have hcount : (List.range c.listeners).count listener = 1 :=
    List.count_eq_one_of_mem List.nodup_range (List.mem_range.2 hlt)
  simpa [notices, List.countP_map, Function.comp_def, List.count, BEq.beq] using hcount

end Canvas

end WidgetSkin
