import WidgetSkin.Canvas.Basic

/-!
# Canvases through their objects

A canvas is looked at through `object?`. Every operation has one equation that says which
objects it leaves, so that nothing else has to know how they are kept.

## Main statements

* `Canvas.object?_add`, `Canvas.object?_remove`, `Canvas.object?_change` — the operations that
  touch objects.
* `Canvas.geometry?_setGeometry` — what a written geometry reads back as.
-/

namespace WidgetSkin

namespace Canvas

/-! ## Keyed lists -/

theorem lookup_cons_pair {α β : Type} [DecidableEq α] (k : α) (o : α × β) (os : List (α × β)) :
    (o :: os).lookup k = if k = o.1 then some o.2 else os.lookup k := by
  obtain ⟨a, b⟩ := o
  by_cases hk : k = a
  · simp [hk]
  · simp [List.lookup_cons, hk, beq_eq_false_iff_ne.2 hk]

theorem lookup_change {α β : Type} [DecidableEq α] (h k : α) (f : β → β)
    (os : List (α × β)) :
    (os.map fun o => if o.1 = h then (o.1, f o.2) else o).lookup k =
      if k = h then (os.lookup k).map f else os.lookup k := by
  induction os with
  | nil => simp
  | cons o os ih =>
    rw [List.map_cons, lookup_cons_pair, lookup_cons_pair, ih]
    by_cases ho : o.1 = h <;> by_cases hk : k = h <;> grind

theorem lookup_erase {α β : Type} [DecidableEq α] (h k : α) (os : List (α × β)) :
    (os.filter fun o => o.1 ≠ h).lookup k = if k = h then none else os.lookup k := by
  induction os with
  | nil => simp
  | cons o os ih =>
    rw [List.filter_cons, lookup_cons_pair]
    by_cases ho : o.1 = h
    · rw [if_neg (by simp [ho]), ih]
      grind
    · rw [if_pos (by simp [ho]), lookup_cons_pair, ih]
      grind

theorem lookup_snoc {α β : Type} [DecidableEq α] (h k : α) (b : β) (os : List (α × β)) :
    (os ++ [(h, b)]).lookup k = (os.lookup k).or (if k = h then some b else none) := by
  induction os with
  | nil => simp [lookup_cons_pair]
  | cons o os ih =>
    rw [List.cons_append, lookup_cons_pair, lookup_cons_pair, ih]
    split <;> simp

/-! ## Operations -/

@[simp] theorem object?_empty (h : Handle) : ({} : Canvas).object? h = none := rfl

@[simp] theorem object?_setActive (c : Canvas) (active : Option Handle) (h : Handle) :
    (c.setActive active).object? h = c.object? h := rfl

@[simp] theorem object?_restack (c : Canvas) (order : List Handle) (h : Handle) :
    (c.restack order).object? h = c.object? h := rfl

@[simp] theorem object?_listen (c : Canvas) (h : Handle) :
    c.listen.2.object? h = c.object? h := rfl

/-- A new object comes behind all others and hides none of them. -/
theorem object?_add (c : Canvas) (kind : LayerKind) (geometry : Geometry) (payload : Payload)
    (h : Handle) :
    (c.add kind geometry payload).2.object? h =
      (c.object? h).or
        (if h = ⟨c.lastHandle + 1⟩ then some { kind, geometry, payload } else none) :=
  lookup_snoc ..

/-- An object that was removed is gone, and all others stay. -/
theorem object?_remove (c : Canvas) (h k : Handle) :
    (c.remove h).2.object? k = if k = h then none else c.object? k := by
  unfold remove
  split
  · exact lookup_erase ..
  · next hdead =>
    by_cases hk : k = h
    · subst hk
      simpa [isLive] using hdead
    · simp [hk]

/-- A change reaches the object with the handle and no other. -/
theorem object?_change (c : Canvas) (h k : Handle) (f : CanvasObject → CanvasObject) :
    (c.change h f).object? k = if k = h then (c.object? k).map f else c.object? k :=
  lookup_change ..

@[simp] theorem isLive_change (c : Canvas) (h k : Handle) (f : CanvasObject → CanvasObject) :
    (c.change h f).isLive k = c.isLive k := by
  unfold isLive
  rw [object?_change]
  split <;> simp

/-- A geometry that is written reads back, if the handle has an object. -/
theorem geometry?_setGeometry (c : Canvas) (h k : Handle) (g : Geometry) :
    geometry? (c.setGeometry h g).2 k =
      if k = h then (c.geometry? k).map fun _ => g else c.geometry? k := by
  unfold setGeometry geometry?
  split
  · rw [object?_change]
    split
    · cases c.object? k <;> rfl
    · rfl
  · next hdead =>
    by_cases hk : k = h
    · subst hk
      simp_all [isLive]
    · simp [hk]

end Canvas

end WidgetSkin
