import Mathlib.Data.List.Induction
import WidgetSkin.Proofs.Editor.Reachable

/-!
# Histories of editors

A history is a list of events: operations, each with what the editor learns from outside, and
objects that the user drags on the canvas. Every state of an editor is the end of a history, and
what holds after every history is shown by adding one event at the end.

## Main definitions

* `Event` — one thing that happens to an editor.
* `Editor.run` — the editor after a history.
* `Editor.notes` — what is noted of a history, event by event.

## Main statements

* `Editor.reachable_iff` — the states of an editor are the ends of histories.
* `Editor.run_concat`, `Editor.notes_concat` — one more event.
-/

namespace WidgetSkin

/-- One thing that happens to an editor. -/
inductive Event where
  /-- The editor does an operation. -/
  | operation (s : Surroundings) (op : EditorOp)
  /-- The user drags an object on the canvas. -/
  | drag (h : Handle) (point : Point)

namespace Editor

variable {α : Type} {config : EditorConfig} {e : Editor}

/-- The editor after an event. -/
def after (e : Editor) : Event → Editor
  | .operation s op => (e.step s op).editor
  | .drag h point => e.observe (.drag h point)

/-- The editor after a history. -/
def run (e : Editor) (events : List Event) : Editor :=
  events.foldl after e

/-- What is noted of the events of a history, each seen with the editor before it. -/
def notes (note : Editor → Event → Option α) (e : Editor) : List Event → List α
  | [] => []
  | event :: events => (note e event).toList ++ notes note (e.after event) events

@[simp] theorem run_nil (e : Editor) : e.run [] = e := rfl

theorem run_append (e : Editor) (past future : List Event) :
    e.run (past ++ future) = (e.run past).run future :=
  List.foldl_append

theorem run_concat (e : Editor) (events : List Event) (event : Event) :
    e.run (events ++ [event]) = (e.run events).after event :=
  e.run_append events [event]

theorem notes_append (note : Editor → Event → Option α) (e : Editor) (past future : List Event) :
    notes note e (past ++ future) = notes note e past ++ notes note (e.run past) future := by
  induction past generalizing e with
  | nil => rfl
  | cons event events ih => rw [List.cons_append, notes, ih, notes, List.append_assoc]; rfl

theorem notes_concat (note : Editor → Event → Option α) (e : Editor) (events : List Event)
    (event : Event) :
    notes note e (events ++ [event]) =
      notes note e events ++ (note (e.run events) event).toList := by
  rw [notes_append, notes, notes, List.append_nil]

/-! ## The ends of histories -/

theorem Reachable.after (h : Reachable config e) (event : Event) :
    Reachable config (e.after event) := by
  cases event with
  | operation s op => exact .step s op h
  | drag handle point => exact .drag handle point h

/-- Every history ends in a state of the editor. -/
theorem reachable_run (config : EditorConfig) (events : List Event) :
    Reachable config ((Editor.new config).run events) := by
  induction events using List.reverseRecOn with
  | nil => exact .new
  | append_singleton events event ih =>
    rw [run_concat]
    exact ih.after event

/-- The states of an editor are the ends of histories. -/
theorem reachable_iff : Reachable config e ↔ ∃ events, (Editor.new config).run events = e := by
  constructor
  · intro h
    induction h with
    | new => exact ⟨[], rfl⟩
    | step s op _ ih =>
      obtain ⟨events, rfl⟩ := ih
      exact ⟨events ++ [.operation s op], run_concat _ _ _⟩
    | drag handle point _ ih =>
      obtain ⟨events, rfl⟩ := ih
      exact ⟨events ++ [.drag handle point], run_concat _ _ _⟩
  · rintro ⟨events, rfl⟩
    exact reachable_run config events

theorem inStep_run (config : EditorConfig) (events : List Event) :
    ((Editor.new config).run events).InStep :=
  (reachable_run config events).inStep

end Editor

end WidgetSkin
