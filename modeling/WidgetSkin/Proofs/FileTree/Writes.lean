import Mathlib.Logic.Relation
import WidgetSkin.Proofs.FileTree.Place

/-!
# What a piece of work writes

A tree that came about by directories made, files written and files copied differs from the
tree before at most where the paths of these operations name a place. That is so on every device,
whether the operations succeed or fail.

## Main definitions

* `FileTree.Writes` — one operation under a path.
* `FileTree.WritesOnly` — a tree comes from another by operations under admitted paths.

## Main statements

* `FileTree.makeDirectory_eq_ok_iff`, `FileTree.writable_eq_ok_iff`, `FileTree.copyOf_eq_ok_iff` —
  when a directory can be made, a file written and a file copied.
* `FileTree.write_cases`, `FileTree.eq_or_exists_put_of_copy` — what can become of a file.
* `FileTree.WritesOnly.node?_eq` — what no admitted path names stays as it was.
-/

namespace WidgetSkin.FileTree

/-- An operation under `path` turns `t` into `u`, whether it succeeds or fails. -/
inductive Writes (t : FileTree) (path : String) (u : FileTree) (device : Device := {}) : Prop
  | makeDirectory (h : t.makeDirectory path device = .ok u)
  | write {content : ByteArray} {result : Except SystemError Unit}
    (h : t.write path content device = (result, u))
  | copy {source : String} {result : Except SystemError Unit}
    (h : t.copy source path device = (result, u))

/-- The tree `u` comes from `t` by operations under admitted paths. -/
def WritesOnly (Admitted : String → Prop) (t u : FileTree) (device : Device := {}) : Prop :=
  Relation.ReflTransGen (fun t u => ∃ path, Admitted path ∧ t.Writes path u device) t u

/-! ## Single operations -/

section Operations

variable {t u : FileTree} {place : Location} {path : String} {content : ByteArray}
  {device : Device}

theorem hasDirectory_iff : t.hasDirectory place = true ↔ t.node? place = some .directory := by
  simp [hasDirectory]

/-- A directory can be made where a path leads to a name under which nothing stands, unless the
device refuses it. -/
theorem makeDirectory_eq_ok_iff :
    t.makeDirectory path device = .ok u ↔ ∃ target, t.follow path = .ok target ∧
      target.ending ≠ .directory ∧ t.node? target.place = none ∧
      device.refusal? target.place = none ∧ t.put target.place .directory = u := by
  simp only [makeDirectory, bind_eq_ok_iff]
  refine exists_congr fun target => and_congr_right fun _ => ?_
  split
  · next h =>
    refine iff_of_false (by nofun) ?_
    rintro ⟨hending, hnone, -⟩
    simp [hending, hnone] at h
  · next h =>
    rw [not_or, Bool.not_eq_true, Option.isSome_eq_false_iff, Option.isNone_iff_eq_none] at h
    cases hrefusal : device.refusal? target.place with
    | none => simp [pure_eq_ok_iff, h]
    | some reason => exact iff_of_false (fun hthrown => by cases hthrown) (by simp)

/-- A file can be written where a path leads to a name under which no directory stands. -/
theorem writable_eq_ok_iff :
    t.writable path = .ok place ↔ ∃ target, t.follow path = .ok target ∧
      target.ending = .name ∧ t.hasDirectory target.place = false ∧ target.place = place := by
  simp only [writable, bind_eq_ok_iff]
  refine exists_congr fun target => and_congr_right fun _ => ?_
  split
  · next h =>
    refine iff_of_false (by nofun) ?_
    rintro ⟨hending, hfile, -⟩
    simp [hending, hfile] at h
  · next h =>
    rw [not_or, Decidable.not_not, Bool.not_eq_true] at h
    simp [pure_eq_ok_iff, h]

/-- A copy can be made from a file to where a file can be written. -/
theorem copyOf_eq_ok_iff {source target : String} :
    t.copyOf source target = .ok (place, content) ↔ ∃ read stored,
      t.find source = .ok (read, .file stored) ∧ t.writable target = .ok place ∧
      (if place = read then .empty else stored) = content := by
  simp only [copyOf, bind_eq_ok_iff]
  constructor
  · rintro ⟨⟨read, node⟩, hfind, hcopy⟩
    cases node with
    | directory => cases hcopy
    | file stored =>
      obtain ⟨written, hwritten, hfile⟩ := bind_eq_ok_iff.1 hcopy
      obtain ⟨rfl, hcontent⟩ := Prod.mk.inj (pure_eq_ok_iff.1 hfile)
      exact ⟨read, stored, hfind, hwritten, hcontent⟩
  · rintro ⟨read, stored, hfind, hwritten, rfl⟩
    exact ⟨(read, .file stored), hfind, bind_eq_ok_iff.2 ⟨place, hwritten, rfl⟩⟩

@[simp] theorem store_error (t : FileTree) (reason : SystemError) (device : Device) :
    t.store (.error reason) device = (.error reason, t) := rfl

@[simp] theorem store_sound (t : FileTree) (place : Location) (content : ByteArray) :
    t.store (.ok (place, content)) {} = (.ok (), t.put place (.file content)) := rfl

/-- A file that is stored is refused, or broken off behind its first bytes, or put. -/
theorem store_cases (t : FileTree) (file : Except SystemError (Location × ByteArray))
    (device : Device) :
    (∃ reason, t.store file device = (.error reason, t)) ∨
    ∃ place content, file = .ok (place, content) ∧
      ((∃ taken reason, device.limit? place = some (taken, reason) ∧ taken < content.size ∧
          t.store file device =
            (.error reason, t.put place (.file (content.extract 0 taken)))) ∨
        t.store file device = (.ok (), t.put place (.file content))) := by
  rcases file with reason | ⟨place, content⟩
  · exact .inl ⟨reason, rfl⟩
  simp only [store]
  cases device.refusal? place with
  | some reason => exact .inl ⟨reason, rfl⟩
  | none =>
    refine .inr ⟨place, content, rfl, ?_⟩
    cases hlimit : (device.limit? place).filter (·.1 < content.size) with
    | none => exact .inr rfl
    | some limit =>
      obtain ⟨hplace, htaken⟩ := Option.filter_eq_some_iff.1 hlimit
      exact .inl ⟨limit.1, limit.2, hplace, by simpa using htaken, rfl⟩

/-- A file that is written is refused, or broken off behind its first bytes, or put. -/
theorem write_cases (t : FileTree) (path : String) (content : ByteArray) (device : Device) :
    (∃ reason, t.write path content device = (.error reason, t)) ∨
    ∃ place, t.writable path = .ok place ∧
      ((∃ taken reason, device.limit? place = some (taken, reason) ∧ taken < content.size ∧
          t.write path content device =
            (.error reason, t.put place (.file (content.extract 0 taken)))) ∨
        t.write path content device = (.ok (), t.put place (.file content))) := by
  refine (t.store_cases ((·, content) <$> t.writable path) device).imp_right ?_
  rintro ⟨place, bytes, hfile, hstore⟩
  obtain ⟨written, hwritten, heq⟩ := map_eq_ok_iff.1 hfile
  obtain ⟨rfl, rfl⟩ := Prod.mk.inj heq
  exact ⟨written, hwritten, hstore⟩

/-- A copy puts at most one file, and that where one can be written. -/
theorem eq_or_exists_put_of_copy (t : FileTree) (source target : String) (device : Device) :
    (t.copy source target device).2 = t ∨ ∃ place content, t.writable target = .ok place ∧
      (t.copy source target device).2 = t.put place (.file content) := by
  rcases t.store_cases (t.copyOf source target) device with ⟨reason, hstore⟩ | ⟨place, content,
    hfile, hstore⟩
  · exact .inl (congrArg Prod.snd hstore)
  obtain ⟨-, -, -, hwritten, -⟩ := copyOf_eq_ok_iff.1 hfile
  rcases hstore with ⟨taken, reason, -, -, hstore⟩ | hstore
  · exact .inr ⟨place, _, hwritten, congrArg Prod.snd hstore⟩
  · exact .inr ⟨place, _, hwritten, congrArg Prod.snd hstore⟩

theorem writable_eq_ok (h : t.writable path = .ok place) :
    place = Path.resolve t.workDir path := by
  obtain ⟨target, hfollow, -, -, rfl⟩ := writable_eq_ok_iff.1 h
  exact place_of_follow hfollow

theorem makeDirectory_eq_ok (h : t.makeDirectory path device = .ok u) :
    u = t.put (Path.resolve t.workDir path) .directory := by
  obtain ⟨target, hfollow, -, -, -, rfl⟩ := makeDirectory_eq_ok_iff.1 h
  rw [place_of_follow hfollow]

/-- An operation changes nothing, or it makes a directory, or it puts a file where one can be
written. -/
theorem Writes.cases (h : t.Writes path u device) :
    u = t ∨ t.makeDirectory path device = .ok u ∨
    ∃ place content, t.writable path = .ok place ∧ u = t.put place (.file content) := by
  cases h with
  | makeDirectory h => exact .inr (.inl h)
  | @write content _ h =>
    rcases t.write_cases path content device with ⟨reason, hwrite⟩ | ⟨place, hplace, hput⟩
    · exact .inl (Prod.mk.inj (h.symm.trans hwrite)).2
    · rcases hput with ⟨taken, reason, -, -, hwrite⟩ | hwrite
      · exact .inr (.inr ⟨place, _, hplace, (Prod.mk.inj (h.symm.trans hwrite)).2⟩)
      · exact .inr (.inr ⟨place, _, hplace, (Prod.mk.inj (h.symm.trans hwrite)).2⟩)
  | @copy source _ h =>
    have hcopy := t.eq_or_exists_put_of_copy source path device
    rw [h] at hcopy
    exact hcopy.imp_right .inr

/-- An operation puts at most one node, and that where its path names a place. -/
theorem Writes.eq_or_exists_put (h : t.Writes path u device) :
    u = t ∨ ∃ node, u = t.put (Path.resolve t.workDir path) node := by
  rcases h.cases with rfl | hmade | ⟨place, content, hplace, rfl⟩
  · exact .inl rfl
  · exact .inr ⟨_, makeDirectory_eq_ok hmade⟩
  · exact .inr ⟨_, by rw [writable_eq_ok hplace]⟩

/-- A node that is put somewhere changes no other place. -/
theorem node?_put_of_ne {other : Location} (node : Node) (h : other ≠ place) :
    (t.put place node).node? other = t.node? other := by
  simp [node?, put, lookup_setEntry, h]

end Operations

/-! ## Several operations -/

namespace WritesOnly

variable {Admitted : String → Prop} {t u v : FileTree} {path : String} {device : Device}

theorem refl (t : FileTree) : t.WritesOnly Admitted t device :=
  Relation.ReflTransGen.refl

theorem single (hpath : Admitted path) (h : t.Writes path u device) :
    t.WritesOnly Admitted u device :=
  Relation.ReflTransGen.single ⟨path, hpath, h⟩

theorem trans (htu : t.WritesOnly Admitted u device) (huv : u.WritesOnly Admitted v device) :
    t.WritesOnly Admitted v device :=
  Relation.ReflTransGen.trans htu huv

theorem workDir_eq (h : t.WritesOnly Admitted u device) : u.workDir = t.workDir := by
  induction h with
  | refl => rfl
  | tail _ step ih =>
    obtain ⟨path, -, hwrites⟩ := step
    rcases hwrites.eq_or_exists_put with rfl | ⟨node, rfl⟩ <;> exact ih

/-- What no admitted path names stays as it was. -/
theorem node?_eq (h : t.WritesOnly Admitted u device) {place : Location}
    (hplace : ∀ path, Admitted path → Path.resolve t.workDir path ≠ place) :
    u.node? place = t.node? place := by
  induction h with
  | refl => rfl
  | tail before step ih =>
    obtain ⟨path, hpath, hwrites⟩ := step
    rcases hwrites.eq_or_exists_put with rfl | ⟨node, rfl⟩
    · exact ih
    · -- the directory that the path starts from is still the one of the first tree
      rw [workDir_eq before, node?_put_of_ne node (hplace path hpath).symm, ih]

end WritesOnly

end WidgetSkin.FileTree
