import WidgetSkin.Proofs.Editor.InStep

/-!
# Orders of layers

A new order is accepted if it names every layer once, and an exchange of neighbours is one. The
layers are drawn from a pile in the new order; the pile is scrambled with every layer that is
taken, but it always holds exactly the layers that are still to come.

## Main definitions

* `Editor.moved` — the layers with two neighbours exchanged.
* `Editor.arranged` — an editor with its layers in another order.

## Main statements

* `fillGap_perm`, `drawFrom_eq` — the layers that are drawn are those that lie in the pile.
* `Edit.requireDistinct_eq_ok_iff` — what is asked of a new order.
* `Editor.accepts_iff_perm`, `Editor.filterMap_layer?_perm` — a new order is accepted if it is one
  of all identifiers, and is then one of all layers.
* `exchangeAt_perm`, `Editor.moved_perm` — neighbours that are exchanged.
* `Editor.layer?_arranged`, `Editor.arranged_arranged` — an arrangement leaves the layers as they
  are, and the last one counts.
-/

namespace WidgetSkin

theorem exchangeAt_perm {α : Type} (n : Nat) (as : List α) : (exchangeAt n as).Perm as := by
  fun_induction exchangeAt n as with
  | case1 a b rest => exact .swap a b rest
  | case2 n a rest ih => exact ih.cons a
  | case3 => exact .refl _

/-- The first item that has a property is found where it lies. -/
theorem findIdx_append_cons {α : Type} (has : α → Bool) {front : List α} {a : α}
    (hfront : ∀ b ∈ front, has b = false) (ha : has a = true) (back : List α) :
    (front ++ a :: back).findIdx has = front.length := by
  rw [List.findIdx_append, List.findIdx_eq_length_of_false hfront, if_neg (Nat.lt_irrefl _),
    List.findIdx_cons, ha]
  simp

/-! ## Layers drawn from a pile -/

theorem exists_fillGap_append {α : Type} (front back : List α) (a : α) :
    ∃ rest, fillGap front.length (front ++ a :: back) = front ++ rest ∧ rest.Perm back := by
  rcases List.eq_nil_or_concat back with rfl | ⟨back, last, rfl⟩
  · -- The item is the last one and fills its own gap.
    exact ⟨[], by simp [fillGap], .refl _⟩
  · rw [List.concat_eq_append]
    refine ⟨last :: back, ?_, (List.perm_append_singleton last back).symm⟩
    have hlast : (front ++ a :: (back ++ [last])).getLast? = some last := by
      simp [List.getLast?_append, List.getLast?_cons]
    have hset : (front ++ a :: (back ++ [last])).set front.length last =
        (front ++ last :: back) ++ [last] := by simp
    simp only [fillGap, hlast, hset, List.dropLast_concat]

/-- Only the layer that is found is taken from the pile. -/
theorem fillGap_perm {pile : List Layer} {id : LayerId} {l : Layer}
    (hfound : (pile.find? fun m => m.id = id) = some l) :
    (l :: fillGap (pile.findIdx fun m => m.id = id) pile).Perm pile := by
  obtain ⟨hid, front, back, rfl, hfront⟩ := List.find?_eq_some_iff_append.1 hfound
  have hplace : (front ++ l :: back).findIdx (fun m => m.id = id) = front.length :=
    findIdx_append_cons (fun m : Layer => m.id = id) (by simpa using hfront) hid back
  obtain ⟨rest, hfilled, hrest⟩ := exists_fillGap_append front back l
  rw [hplace, hfilled]
  exact List.perm_middle.symm.trans ((hrest.cons l).append_left front)

/-- Layers drawn in an order without repetitions are those that lie in the pile at the beginning,
however it is scrambled meanwhile. -/
theorem drawFrom_eq {pile : List Layer} {ids : List LayerId}
    (hpile : (pile.map Layer.id).Nodup) (hids : ids.Nodup) :
    drawFrom pile ids = ids.filterMap fun id => pile.find? fun l => l.id = id := by
  induction ids generalizing pile with
  | nil => rfl
  | cons id ids ih =>
    obtain ⟨hid, hids⟩ := List.nodup_cons.1 hids
    rw [drawFrom, List.filterMap_cons]
    cases hfound : pile.find? fun l => l.id = id with
    | none => exact ih hpile hids
    | some l =>
      have hperm := fillGap_perm hfound
      have hrest := (List.nodup_cons.1 ((hperm.map Layer.id).nodup_iff.2 hpile)).2
      dsimp only
      rw [ih hrest hids]
      -- Whatever comes later is still in the pile.
      refine congrArg (l :: ·) (List.filterMap_congr fun id' hid' => Option.ext fun m => ?_)
      have hne : id' ≠ id := fun heq => hid (heq ▸ hid')
      have hl : l.id = id := (find?_key_eq_some_iff hpile).1 hfound |>.2
      rw [find?_key_eq_some_iff hrest, find?_key_eq_some_iff hpile,
        ← hperm.mem_iff, List.mem_cons]
      grind

/-! ## What is asked of a new order -/

/-- An order is accepted if it names known layers, none of them twice or before. -/
theorem Edit.requireDistinct_eq_ok_iff {e : Editor} {seen order : List LayerId} {u : Unit} :
    Edit.requireDistinct e seen order = .ok u ↔
      order.Nodup ∧ ∀ id ∈ order, id ∉ seen ∧ (e.layer? id).isSome = true := by
  induction order generalizing seen with
  | nil => simp [requireDistinct]
  | cons id order ih =>
    unfold requireDistinct
    by_cases hseen : id ∈ seen
    · simp [hseen]
    · cases hfound : e.layer? id with
      | none => simp [hseen, hfound]
      | some l =>
        simp only [hseen, List.contains_eq_mem, decide_false, Bool.false_eq_true, if_false,
          Option.isNone_some, ih, List.nodup_cons, List.mem_cons]
        grind

namespace Editor

/-- The layers with one of them exchanged with its neighbour, unless it is at the end. -/
def moved (e : Editor) (id : LayerId) (direction : Direction) : List Layer :=
  let place := e.layers.findIdx fun l => l.id = id
  match direction with
  | .up => if 0 < place then exchangeAt (place - 1) e.layers else e.layers
  | .down => if place + 1 < e.layers.length then exchangeAt place e.layers else e.layers

theorem moved_perm (e : Editor) (id : LayerId) (direction : Direction) :
    (e.moved id direction).Perm e.layers := by
  unfold moved
  cases direction <;> dsimp only <;> split
  · exact exchangeAt_perm _ _
  · exact .refl _
  · exact exchangeAt_perm _ _
  · exact .refl _

section Known

variable {e : Editor} {ids : List LayerId}

/-- Layers of an editor are those that are found under their identifiers. -/
theorem filterMap_layer?_map_id (he : e.InStep) {layers : List Layer}
    (hlayers : ∀ l ∈ layers, l ∈ e.layers) :
    (layers.map Layer.id).filterMap e.layer? = layers :=
  filterMap_find?_map_key he.ids_nodup hlayers

/-- The layers under another order of the identifiers are all layers. -/
theorem filterMap_layer?_perm (he : e.InStep) (hperm : ids.Perm e.order) :
    (ids.filterMap e.layer?).Perm e.layers :=
  filterMap_find?_perm he.ids_nodup hperm

/-- Known identifiers are those of the layers that are found under them. -/
theorem map_id_filterMap_layer? (hknown : ∀ id ∈ ids, (e.layer? id).isSome = true) :
    (ids.filterMap e.layer?).map Layer.id = ids := by
  rw [List.map_filterMap]
  have hself : ∀ id ∈ ids, (e.layer? id).map Layer.id = some id := by
    intro id hid
    obtain ⟨l, hl⟩ := Option.isSome_iff_exists.1 (hknown id hid)
    rw [hl, Option.map_some, (mem_of_layer? hl).2]
  rw [List.filterMap_congr hself, List.filterMap_some]

theorem isSome_layer?_of_mem_order (he : e.InStep) {id : LayerId} (hid : id ∈ e.order) :
    (e.layer? id).isSome = true := by
  obtain ⟨l, hl, rfl⟩ := List.mem_map.1 hid
  rw [he.layer?_eq hl]
  rfl

end Known

/-- An order of as many different known identifiers as there are layers is one of all of
them. -/
theorem order_perm {e : Editor} {order : List LayerId} (hlength : order.length = e.layers.length)
    (hnodup : order.Nodup) (hknown : ∀ id ∈ order, (e.layer? id).isSome = true) :
    order.Perm e.order := by
  have hsubset : order ⊆ e.order := by
    intro id hid
    obtain ⟨l, hl⟩ := Option.isSome_iff_exists.1 (hknown id hid)
    obtain ⟨hmem, rfl⟩ := mem_of_layer? hl
    exact List.mem_map_of_mem hmem
  have hcount : e.order.length = order.length := (List.length_map ..).trans hlength.symm
  exact (List.subperm_of_subset hnodup hsubset).perm_of_length_le (Nat.le_of_eq hcount)

/-- A new order is accepted if it is one of all identifiers. -/
theorem accepts_iff_perm {e : Editor} (he : e.InStep) {order : List LayerId} :
    order.length = e.layers.length ∧ Edit.requireDistinct e [] order = .ok () ↔
      order.Perm e.order := by
  rw [Edit.requireDistinct_eq_ok_iff]
  constructor
  · rintro ⟨hlength, hnodup, hknown⟩
    exact order_perm hlength hnodup fun id hid => (hknown id hid).2
  · intro hperm
    refine ⟨hperm.length_eq.trans (List.length_map ..), hperm.nodup_iff.2 he.ids_nodup, ?_⟩
    exact fun id hid =>
      ⟨List.not_mem_nil, isSome_layer?_of_mem_order he (hperm.mem_iff.1 hid)⟩

/-! ## Arrangements -/

/-- The editor with its layers in the order of some identifiers. -/
def arranged (e : Editor) (ids : List LayerId) : Editor :=
  e.ordered (ids.filterMap e.layer?)

section Arranged

variable {e : Editor} {ids : List LayerId}

theorem InStep.arranged (he : e.InStep) (hperm : ids.Perm e.order) : (e.arranged ids).InStep :=
  he.ordered (filterMap_layer?_perm he hperm)

theorem order_arranged (he : e.InStep) (hperm : ids.Perm e.order) : (e.arranged ids).order = ids :=
  map_id_filterMap_layer? fun _ hid => isSome_layer?_of_mem_order he (hperm.mem_iff.1 hid)

/-- Every layer is the same in another order. -/
theorem layer?_arranged (he : e.InStep) (hperm : ids.Perm e.order) (id : LayerId) :
    (e.arranged ids).layer? id = e.layer? id := by
  refine Option.ext fun l => ?_
  rw [layer?_eq_some_iff (he.arranged hperm).ids_nodup, layer?_eq_some_iff he.ids_nodup]
  exact and_congr_left' (filterMap_layer?_perm he hperm).mem_iff

/-- Of two arrangements the last one counts. -/
theorem arranged_arranged (he : e.InStep) (hperm : ids.Perm e.order) (ids' : List LayerId) :
    (e.arranged ids).arranged ids' = e.arranged ids' := by
  have hlayers : ids'.filterMap (e.arranged ids).layer? = ids'.filterMap e.layer? :=
    List.filterMap_congr fun id _ => layer?_arranged he hperm id
  rw [arranged, hlayers]
  rfl

/-- Stacking the objects anew changes nothing while the order stays. -/
theorem ordered_self (he : e.InStep) : e.ordered e.layers = e := by
  have hstacking : (e.layers.map Layer.handle).filter e.canvas.isLive = e.canvas.stacking :=
    (Canvas.stacking_restack fun _ => he.handles_perm.mem_iff.2).trans he.stacking_eq.symm
  rw [ordered, Canvas.restack, hstacking]

theorem arranged_order (he : e.InStep) : e.arranged e.order = e := by
  rw [arranged, order, filterMap_layer?_map_id he fun _ hl => hl, ordered_self he]

end Arranged

end Editor

end WidgetSkin
