import Mathlib.Order.Defs.Unbundled
import WidgetSkin.Proofs.Editor.LayerRun

/-!
# Edits within a relation

A relation between the editor before and the editor after holds of an edit if it holds of every
piece of it, provided that it is reflexive and transitive. So what edits do to an editor is shown
piece by piece, without following what the pieces find.

## Main definitions

* `Edit.WithinAt`, `Edit.Within` — an edit that leads from one editor to another within a
  relation, from one session or from all.

## Main statements

* `Edit.WithinAt.bind`, `Edit.Within.bind` — one edit after another.
-/

namespace WidgetSkin

namespace Edit

variable {α β : Type} {R : Editor → Editor → Prop}

/-- An edit that leads from the editor of a session to another one within a relation. -/
def WithinAt (R : Editor → Editor → Prop) (m : Edit α) (session : Session) : Prop :=
  R session.editor (exec m session).2.editor

/-- An edit that stays within a relation in every session, whatever comes of it. -/
def Within (R : Editor → Editor → Prop) (m : Edit α) : Prop :=
  ∀ session, WithinAt R m session

theorem WithinAt.bind [IsTrans Editor R] {m : Edit α} {f : α → Edit β} {session : Session}
    (hm : WithinAt R m session)
    (hf : ∀ a session', exec m session = (.ok a, session') → WithinAt R (f a) session') :
    WithinAt R (m >>= f) session := by
  unfold WithinAt at hm ⊢
  rw [exec_bind]
  rcases hexec : exec m session with ⟨_ | a, session'⟩
  · rwa [hexec] at hm
  · rw [hexec] at hm
    exact Trans.trans hm (hf a session' hexec)

theorem WithinAt.map {m : Edit α} {session : Session} (f : α → β) (hm : WithinAt R m session) :
    WithinAt R (f <$> m) session := by
  rw [WithinAt, exec_map]
  exact hm

namespace Within

theorem bind [IsTrans Editor R] {m : Edit α} {f : α → Edit β} (hm : Within R m)
    (hf : ∀ a, Within R (f a)) : Within R (m >>= f) := fun session =>
  (hm session).bind fun a session' _ => hf a session'

theorem map {m : Edit α} (f : α → β) (hm : Within R m) : Within R (f <$> m) := fun session =>
  (hm session).map f

theorem update {f : Editor → Editor} (hf : ∀ e, R e (f e)) : Within R (Edit.update f) :=
  fun session => hf session.editor

variable [Std.Refl R]

/-- An edit that only looks. -/
theorem of_editor_eq {m : Edit α} (h : ∀ session, (exec m session).2.editor = session.editor) :
    Within R m := by
  intro session
  rw [WithinAt, h]
  exact Std.Refl.refl _

theorem pure (a : α) : Within R (Pure.pure a : Edit α) := .of_editor_eq fun _ => rfl

theorem throw (fault : Fault) : Within R (MonadExcept.throw fault : Edit α) :=
  .of_editor_eq fun _ => rfl

theorem editor : Within R Edit.editor := .of_editor_eq fun _ => rfl

theorem ofExcept (result : Except Fault α) : Within R (Edit.ofExcept result) :=
  .of_editor_eq fun session => by rw [exec_ofExcept]

theorem layer (id : LayerId) : Within R (Edit.layer id) :=
  .of_editor_eq fun session => by rw [exec_layer]

theorem refuseIf (condition : Bool) (cause : Invalid) : Within R (Edit.refuseIf condition cause) :=
  .of_editor_eq fun session => by rw [exec_refuseIf]

theorem imageSize (s : Surroundings) (path : String) : Within R (Edit.imageSize s path) :=
  .of_editor_eq fun session => by rw [exec_imageSize]

theorem ask (s : Surroundings) (kind : LayerKind) : Within R (Edit.ask s kind) :=
  .of_editor_eq fun session => by rw [exec_ask]

theorem requireApplicable (measure : String) (kind : LayerKind) :
    Within R (Edit.requireApplicable measure kind) :=
  .of_editor_eq fun session => by rw [exec_requireApplicable]

end Within

end Edit

end WidgetSkin
