import WidgetSkin.Editor.Operations

/-!
# Running edits

An edit takes a session to a result and a session. Each building block of edits has one equation
that says how, so that a run is computed by rewriting.

## Main definitions

* `Edit.exec` — what an edit does to a session.
* `Surroundings.imageSize` — the size of an image file or a fault.

## Main statements

* `Edit.exec_bind` — one edit after another.
-/

namespace WidgetSkin

/-- The size of an image file, or the fault that it has none. -/
def Surroundings.imageSize (s : Surroundings) (path : String) : Except Fault Size :=
  match s.imageSize? path with
  | some size => .ok size
  | none => .error (.asset path .undecodable)

theorem Surroundings.imageSize_eq_ok_iff {s : Surroundings} {path : String} {size : Size} :
    s.imageSize path = .ok size ↔ s.imageSize? path = some size := by
  unfold imageSize
  cases s.imageSize? path <;> simp

namespace Edit

variable {α β : Type}

/-- What an edit does to a session. -/
def exec (m : Edit α) (session : Session) : Except Fault α × Session :=
  m.run.run session

@[simp] theorem exec_pure (a : α) (session : Session) :
    exec (pure a) session = (.ok a, session) := rfl

@[simp] theorem exec_throw (fault : Fault) (session : Session) :
    exec (throw fault : Edit α) session = (.error fault, session) := rfl

/-- The second of two edits starts where the first has succeeded. -/
@[simp] theorem exec_bind (m : Edit α) (f : α → Edit β) (session : Session) :
    exec (m >>= f) session =
      match exec m session with
      | (.ok a, session') => exec (f a) session'
      | (.error fault, session') => (.error fault, session') := by
  simp only [exec, ExceptT.run, StateT.run, bind, ExceptT.bind, ExceptT.mk, StateT.bind,
    ExceptT.bindCont]
  rcases m session with ⟨_ | a, session'⟩ <;> rfl

@[simp] theorem exec_map (f : α → β) (m : Edit α) (session : Session) :
    exec (f <$> m) session = ((exec m session).1.map f, (exec m session).2) := by
  change exec (m >>= fun a => pure (f a)) session = _
  rw [exec_bind]
  rcases exec m session with ⟨_ | a, session'⟩ <;> rfl

@[simp] theorem exec_editor (session : Session) :
    exec editor session = (.ok session.editor, session) := rfl

@[simp] theorem exec_update (f : Editor → Editor) (session : Session) :
    exec (update f) session = (.ok (), { session with editor := f session.editor }) := rfl

@[simp] theorem exec_ofExcept (result : Except Fault α) (session : Session) :
    exec (ofExcept result) session = (result, session) := by
  cases result <;> rfl

@[simp] theorem exec_refuseIf (condition : Bool) (cause : Invalid) (session : Session) :
    exec (refuseIf condition cause) session =
      (if condition then .error (.invalid cause) else .ok (), session) := by
  cases condition <;> rfl

@[simp] theorem exec_layer (id : LayerId) (session : Session) :
    exec (layer id) session = (session.editor.requireLayer id, session) := by
  rw [layer, exec_bind, exec_editor]
  exact exec_ofExcept ..

@[simp] theorem exec_imageSize (s : Surroundings) (path : String) (session : Session) :
    exec (imageSize s path) session = (s.imageSize path, session) := by
  unfold imageSize Surroundings.imageSize
  cases s.imageSize? path <;> rfl

@[simp] theorem exec_ask (s : Surroundings) (kind : LayerKind) (session : Session) :
    exec (ask s kind) session =
      (s.pick kind, { session with asked := session.asked ++ [kind] }) := by
  change exec (modify _ >>= fun _ => ofExcept (s.pick kind)) session = _
  rw [exec_bind]
  exact exec_ofExcept ..

end Edit

/-- An operation of an editor is run from a session in which nothing was asked. -/
theorem Editor.step_eq_exec (s : Surroundings) (e : Editor) (op : EditorOp) :
    e.step s op =
      ⟨(Edit.exec (op.run s) { editor := e }).1, (Edit.exec (op.run s) { editor := e }).2.editor,
        (Edit.exec (op.run s) { editor := e }).2.asked⟩ := rfl

end WidgetSkin
