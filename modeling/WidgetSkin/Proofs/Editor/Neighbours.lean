import Mathlib.Logic.Relation
import WidgetSkin.Proofs.Editor.Arrangement
import WidgetSkin.Proofs.Editor.Replay

/-!
# Exchanges of neighbours

A layer that is moved changes places with its neighbour. That is a new order of the layers like
any other: a move does what the new order does, at the ends too, where there is no neighbour and
nothing to do. A move back undoes a move, and every new order is a matter of some moves, since
every permutation is made of exchanges of neighbours.

## Main definitions

* `Exchanged` — a list with an item and its neighbour exchanged.
* `AtEnd` — an item without a neighbour in a direction.

## Main statements

* `exists_exchanges_of_perm` — permutations are made of exchanges.
* `Editor.InStep.step_move` — what a move leads to.
* `Editor.Reachable.move_eq_reorder` — moves as new orders, and new orders as moves.
-/

namespace WidgetSkin

/-- The opposite direction. -/
def Direction.back : Direction → Direction
  | .up => .down
  | .down => .up

section Lists

variable {α : Type} {a : α} {as bs : List α} {direction : Direction}

/-- A list before and after an item was exchanged with its neighbour in a direction; at the end
nothing happens. -/
inductive Exchanged (a : α) : Direction → List α → List α → Prop where
  | up (front : List α) (b : α) (back : List α) :
    Exchanged a .up (front ++ b :: a :: back) (front ++ a :: b :: back)
  | down (front : List α) (b : α) (back : List α) :
    Exchanged a .down (front ++ a :: b :: back) (front ++ b :: a :: back)
  | lowest (back : List α) : Exchanged a .up (a :: back) (a :: back)
  | highest (front : List α) : Exchanged a .down (front ++ [a]) (front ++ [a])

/-- An item has no neighbour in a direction. -/
def AtEnd (a : α) (direction : Direction) (as : List α) : Prop :=
  match direction with
  | .up => as.head? = some a
  | .down => as.getLast? = some a

namespace Exchanged

theorem perm (h : Exchanged a direction as bs) : bs.Perm as := by
  cases h with
  | up front b back => exact (List.Perm.swap b a back).append_left front
  | down front b back => exact (List.Perm.swap a b back).append_left front
  | lowest | highest => exact .refl _

theorem mem (h : Exchanged a direction as bs) : a ∈ as := by
  cases h <;> simp

/-- Away from the end an exchange is undone by the one in the opposite direction. -/
theorem symm (h : Exchanged a direction as bs) (hend : ¬ AtEnd a direction as) :
    Exchanged a direction.back bs as := by
  cases h with
  | up front b back => exact .down front b back
  | down front b back => exact .up front b back
  | lowest back => exact absurd rfl hend
  | highest front => exact absurd List.getLast?_concat hend

/-- An exchange goes on behind another item. -/
theorem cons (h : Exchanged a .down as bs) (c : α) : Exchanged a .down (c :: as) (c :: bs) := by
  cases h with
  | down front b back => exact .down (c :: front) b back
  | highest front => exact .highest (c :: front)

end Exchanged

/-- Every item can be exchanged in both directions. -/
theorem exists_exchanged (ha : a ∈ as) (direction : Direction) :
    ∃ bs, Exchanged a direction as bs := by
  obtain ⟨front, back, rfl⟩ := List.append_of_mem ha
  cases direction with
  | up =>
    rcases List.eq_nil_or_concat front with rfl | ⟨front, b, rfl⟩
    · exact ⟨_, .lowest back⟩
    · rw [List.concat_eq_append, List.append_assoc]
      exact ⟨_, .up front b back⟩
  | down =>
    cases back with
    | nil => exact ⟨_, .highest front⟩
    | cons b back => exact ⟨_, .down front b back⟩

/-- Every permutation is made of exchanges of neighbours. -/
theorem exists_exchanges_of_perm (h : as.Perm bs) :
    Relation.ReflTransGen (fun as bs => ∃ a : α, Exchanged a .down as bs) as bs := by
  induction h with
  | nil => exact .refl
  | cons c _ ih => exact ih.lift (c :: ·) fun _ _ ⟨a, h⟩ => ⟨a, h.cons c⟩
  | swap a b back => exact .single ⟨b, .down [] a back⟩
  | trans _ _ ih₁ ih₂ => exact ih₁.trans ih₂

/-! ## Exchanges by place -/

theorem exchangeAt_append (front : List α) (a b : α) (back : List α) :
    exchangeAt front.length (front ++ a :: b :: back) = front ++ b :: a :: back := by
  induction front with
  | nil => rfl
  | cons c front ih => exact congrArg (c :: ·) ih

variable [DecidableEq α] {front back : List α} {b : α}

theorem findIdx_eq_length (hfront : a ∉ front) (back : List α) :
    (front ++ a :: back).findIdx (fun c => c = a) = front.length :=
  findIdx_append_cons (fun c => c = a)
    (fun _ hc => decide_eq_false fun heq => hfront (heq ▸ hc)) (decide_eq_true rfl) back

theorem pushDown_append_cons (hfront : a ∉ front) :
    pushDown (fun c => c = a) (front ++ a :: b :: back) = front ++ b :: a :: back := by
  rw [pushDown_eq, findIdx_eq_length hfront, exchangeAt_append, if_pos (by simp)]

theorem pushDown_append_singleton (hfront : a ∉ front) :
    pushDown (fun c => c = a) (front ++ [a]) = front ++ [a] := by
  rw [pushDown_eq, findIdx_eq_length hfront, if_neg (by simp)]

theorem pullUp_append_cons (hnodup : (front ++ b :: a :: back).Nodup) :
    pullUp (fun c => c = a) (front ++ b :: a :: back) = front ++ a :: b :: back := by
  have honce : (front ++ b :: a :: back).Pairwise
      fun c d => decide (c = a) → decide (d = a) = false :=
    hnodup.imp fun hne hc => decide_eq_false fun hd => hne (by rw [of_decide_eq_true hc, hd])
  have hfront : a ∉ front ++ [b] := by
    rw [List.append_cons] at hnodup
    exact fun ha => List.disjoint_of_nodup_append hnodup ha (List.mem_cons_self ..)
  have hplace := findIdx_eq_length hfront back
  rw [← List.append_cons, List.length_append, List.length_singleton] at hplace
  rw [pullUp_eq honce, hplace, if_pos (Nat.succ_pos _), Nat.add_sub_cancel, exchangeAt_append]

theorem pullUp_cons (hback : a ∉ back) : pullUp (fun c => c = a) (a :: back) = a :: back :=
  pullUp_eq_self fun _ hb => decide_eq_false fun heq => hback (heq ▸ hb)

/-- In a list without repetitions, the item exchanged is the one that is found. -/
theorem Exchanged.eq_of_nodup (h : Exchanged a direction as bs) (hnodup : as.Nodup) :
    bs =
      match direction with
      | .up => pullUp (fun c => c = a) as
      | .down => pushDown (fun c => c = a) as := by
  cases h with
  | up front b back => exact (pullUp_append_cons hnodup).symm
  | down front b back =>
    have hfront : a ∉ front := fun ha =>
      List.disjoint_of_nodup_append hnodup ha (List.mem_cons_self ..)
    exact (pushDown_append_cons hfront).symm
  | lowest back => exact (pullUp_cons (List.nodup_cons.1 hnodup).1).symm
  | highest front =>
    have hfront : a ∉ front := fun ha =>
      List.disjoint_of_nodup_append hnodup ha (List.mem_singleton_self a)
    exact (pushDown_append_singleton hfront).symm

end Lists

namespace Editor

variable {config : EditorConfig} {e : Editor} {id : LayerId} {ids : List LayerId}
  {direction : Direction}

namespace InStep

/-- The identifiers are exchanged with the layers. -/
theorem map_id_moved (he : e.InStep) (h : Exchanged id direction e.order ids) :
    (e.moved id direction).map Layer.id = ids := by
  rw [h.eq_of_nodup he.ids_nodup, he.moved_eq]
  cases direction with
  | up => exact map_pullUp (fun id' => id' = id) Layer.id e.layers
  | down => exact map_pushDown (fun id' => id' = id) Layer.id e.layers

/-- A layer that is moved changes places with its neighbour. -/
theorem step_move (he : e.InStep) (h : Exchanged id direction e.order ids) (s : Surroundings) :
    e.step s (.move id direction) = ⟨.ok .nothing, e.arranged ids, []⟩ := by
  obtain ⟨l, hl⟩ := Option.isSome_iff_exists.1 (isSome_layer?_of_mem_order he h.mem)
  have hmoved : e.ordered (e.moved id direction) = e.arranged ids := by
    rw [Editor.arranged, ← he.map_id_moved h, filterMap_layer?_map_id he]
    exact fun _ hm => (e.moved_perm id direction).mem_iff.1 hm
  refine step_of_ok he ?_
  rw [EditorOp.outcome, requireLayer_eq_ok_iff.2 hl, ok_bind, hmoved]
  rfl

/-- Away from the end a move back undoes a move. -/
theorem step_move_back (he : e.InStep) (h : Exchanged id direction e.order ids)
    (hend : ¬ AtEnd id direction e.order) (s t : Surroundings) :
    ((e.step s (.move id direction)).editor.step t (.move id direction.back)).editor = e := by
  have hback : Exchanged id direction.back (e.arranged ids).order e.order := by
    rw [order_arranged he h.perm]
    exact h.symm hend
  rw [he.step_move h s, (he.arranged h.perm).step_move hback t]
  exact (arranged_arranged he h.perm e.order).trans (arranged_order he)

/-- Some moves bring the layers into any order that exchanges lead to. -/
theorem exists_moves (he : e.InStep)
    (h : Relation.ReflTransGen (fun as bs => ∃ id, Exchanged id .down as bs) e.order ids) :
    ids.Perm e.order ∧ ∃ moves : List (LayerId × Direction),
      (∀ move ∈ moves, move.1 ∈ e.order) ∧ ∀ s,
        e.run (moves.map fun (id, direction) => .operation s (.move id direction)) =
          e.arranged ids := by
  induction h with
  | refl => exact ⟨.refl _, [], List.forall_mem_nil _, fun s => (arranged_order he).symm⟩
  | tail _ hlast ih =>
    obtain ⟨id, hlast⟩ := hlast
    obtain ⟨hperm, moves, hknown, hrun⟩ := ih
    have hid : id ∈ e.order := hperm.mem_iff.1 hlast.mem
    refine ⟨hlast.perm.trans hperm, moves ++ [(id, .down)],
      List.forall_mem_append.2 ⟨hknown, List.forall_mem_singleton.2 hid⟩, fun s => ?_⟩
    rw [← order_arranged he hperm] at hlast
    rw [List.map_append, run_append, hrun s]
    change ((e.arranged _).step s (.move id .down)).editor = _
    rw [(he.arranged hperm).step_move hlast s]
    exact arranged_arranged he hperm _

end InStep

namespace Reachable

/-- A move of a layer is a new order: the present one with the layer and its neighbour exchanged,
or the present one itself if there is no neighbour. So a move back undoes a move that found a
neighbour, and some moves do what a new order does. -/
theorem move_eq_reorder (h : Reachable config e) :
    (∀ id ∈ e.order, ∀ direction,
      (∃ ids, Exchanged id direction e.order ids) ∧
      (∀ ids, Exchanged id direction e.order ids → ∀ s,
        (e.step s (.move id direction)).result = .ok .nothing ∧
        e.step s (.move id direction) = e.step s (.reorder ids)) ∧
      (¬ AtEnd id direction e.order → ∀ s t,
        ((e.step s (.move id direction)).editor.step t (.move id direction.back)).editor = e)) ∧
    ∀ ids, ids.Perm e.order → ∃ moves : List (LayerId × Direction),
      (∀ move ∈ moves, move.1 ∈ e.order) ∧ ∀ s,
        e.run (moves.map fun (id, direction) => .operation s (.move id direction)) =
          (e.step s (.reorder ids)).editor := by
  have he := h.inStep
  refine ⟨fun id hid direction => ⟨exists_exchanged hid direction, ?_, ?_⟩, ?_⟩
  · intro ids hids s
    rw [he.step_move hids, he.step_reorder hids.perm]
    exact ⟨rfl, rfl⟩
  · intro hend s t
    obtain ⟨ids, hids⟩ := exists_exchanged hid direction
    exact he.step_move_back hids hend s t
  · intro ids hperm
    obtain ⟨-, moves, hknown, hrun⟩ :=
      he.exists_moves (exists_exchanges_of_perm hperm.symm)
    refine ⟨moves, hknown, fun s => ?_⟩
    rw [hrun s, he.step_reorder hperm]

/-- Of three bars the second one is moved below the first one, and back. -/
theorem move_eq_reorder_of_bars :
    let bar := Event.operation .silent (.createBar ⟨0, 0⟩)
    let e := (Editor.new {}).run [bar, bar, bar]
    e.order = [⟨1⟩, ⟨2⟩, ⟨3⟩] ∧
      e.step .silent (.move ⟨2⟩ .up) = e.step .silent (.reorder [⟨2⟩, ⟨1⟩, ⟨3⟩]) ∧
      ((e.step .silent (.move ⟨2⟩ .up)).editor.step .silent
        (.move ⟨2⟩ Direction.up.back)).editor = e := by
  intro bar e
  have horder : e.order = [⟨1⟩, ⟨2⟩, ⟨3⟩] := by decide +kernel
  have hbelow : Exchanged ⟨2⟩ .up e.order [⟨2⟩, ⟨1⟩, ⟨3⟩] := by
    rw [horder]
    exact Exchanged.up ([] : List LayerId) ⟨1⟩ [⟨3⟩]
  have hend : ¬ AtEnd ⟨2⟩ .up e.order := by
    rw [horder, AtEnd]
    decide
  have hreachable : Reachable {} e := reachable_run {} [bar, bar, bar]
  obtain ⟨-, hmove, hback⟩ := (move_eq_reorder hreachable).1 ⟨2⟩ hbelow.mem .up
  exact ⟨horder, (hmove _ hbelow .silent).2, hback hend .silent .silent⟩

end Reachable

end Editor

end WidgetSkin
