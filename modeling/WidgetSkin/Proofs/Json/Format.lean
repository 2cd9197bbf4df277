import WidgetSkin.Proofs.Json.Slots

/-!
# Formats

A format says what else a value may be written as, and when it is beyond reading. In a record the
members may stand in any order and among others, and a member may be left out if it is what the
record would be read with all the same. A record in which a field comes twice, or is missing
without a default, is beyond reading, and so is everything around it.

A reader follows a format if it takes a value for the same thing however it is spelled, and
refuses what is beyond reading. For a record that is a matter of one field at a time.

## Main definitions

* `Json.Format`, `Json.Field` — the formats of values and of the fields of a record.
* `Json.Format.record` — the format of a record with given fields.
* `Json.Format.ReadBy` — a reader follows a format.
* `Json.Reads` — what is made of the slots of a record, one field after the other.

## Main statements

* `Json.Format.ReadBy.record` — a reader of records follows the format if it does so for every
  field.
-/

namespace WidgetSkin.Json

/-! ## Formats -/

/-- What the values of a type may be written as. -/
structure Format where
  /-- The second value is another spelling of the first, which was written. -/
  Respells : Value → Value → Prop
  /-- A record in the value has a field twice, or is without one that has no default. -/
  Flawed : Value → Prop

/-- A field of a record. -/
structure Field where
  name : String
  /-- What is written for the default; a field without a default has to be there. -/
  default? : Option Value
  format : Format

namespace Field

/-- A field that has to be there. -/
def needed (name : String) (format : Format) : Field :=
  ⟨name, none, format⟩

/-- A field with a default. -/
def defaulted (name : String) (default : Value) (format : Format) : Field :=
  ⟨name, some default, format⟩

end Field

/-- The members of a record that are kept: all that were written but some that hold the default
of their field. -/
inductive Keeps : List Field → List (String × Value) → List (String × Value) → Prop
  | nil : Keeps [] [] []
  | kept {f : Field} {fields : List Field} {w v : Value} {written members : List (String × Value)}
    (h : f.format.Respells w v) (hrest : Keeps fields written members) :
    Keeps (f :: fields) ((f.name, w) :: written) ((f.name, v) :: members)
  | leftOut {f : Field} {fields : List Field} {w : Value} {written members : List (String × Value)}
    (h : f.default? = some w) (hrest : Keeps fields written members) :
    Keeps (f :: fields) ((f.name, w) :: written) members
  /-- A field with a default may not even be written. -/
  | unwritten {f : Field} {fields : List Field} {written members : List (String × Value)}
    (h : f.default?.isSome = true) (hrest : Keeps fields written members) :
    Keeps (f :: fields) written members

/-- A record that is beyond reading, or whose fields are. -/
inductive RecordFlawed (fields : List Field) : Value → Prop
  | repeated {f : Field} {members : List (Option String × Value)} (hf : f ∈ fields)
    (h : 2 ≤ members.countP fun m => m.1 == some f.name) : RecordFlawed fields (.object members)
  | missing {f : Field} {members : List (Option String × Value)} (hf : f ∈ fields)
    (hneeded : f.default? = none) (h : some f.name ∉ members.map Prod.fst) :
    RecordFlawed fields (.object members)
  | member {f : Field} {members : List (Option String × Value)} {v : Value} (hf : f ∈ fields)
    (hv : (some f.name, v) ∈ members) (h : f.format.Flawed v) :
    RecordFlawed fields (.object members)
  | item {f : Field} {items : List Value} {v : Value} (hv : (f, v) ∈ fields.zip items)
    (h : f.format.Flawed v) : RecordFlawed fields (.array items)

namespace Format

/-- A value that is spelled in one way only. -/
def plain : Format where
  Respells w v := v = w
  Flawed _ := False

/-- A list of values of one format. -/
def list (item : Format) : Format where
  Respells w v := ∃ ws vs, w = .array ws ∧ v = .array vs ∧ List.Forall₂ item.Respells ws vs
  Flawed v := ∃ items, v = .array items ∧ ∃ item' ∈ items, item.Flawed item'

/-- A value under the label of its kind. -/
def choice {κ : Type} (label : κ → String) (content : κ → Format) : Format where
  Respells w v := ∃ k w' v', w = .ofMembers [(label k, w')] ∧ v = .ofMembers [(label k, v')] ∧
    (content k).Respells w' v'
  Flawed v := ∃ k v', v = .ofMembers [(label k, v')] ∧ (content k).Flawed v'

/-- A record. Members may stand in any order, and among others whose names are not those of
fields. -/
def record (fields : List Field) : Format where
  Respells w v := ∃ written kept others members, w = .ofMembers written ∧ v = .ofMembers members ∧
    Keeps fields written kept ∧ members.Perm (kept ++ others) ∧
    ∀ m ∈ others, m.1 ∉ fields.map Field.name
  Flawed := RecordFlawed fields

/-- A record in which every member is kept as it was written. -/
theorem record_respells_self {fields : List Field} {written : List (String × Value)}
    (h : Keeps fields written written) :
    (record fields).Respells (.ofMembers written) (.ofMembers written) :=
  ⟨written, written, [], written, rfl, rfl, h, by simp, by simp⟩

/-- A reader follows the format: other spellings are read as what was written is, and what is
beyond reading is refused. -/
structure ReadBy {α : Type} (format : Format) (read : Value → Option α) : Prop where
  respelled {w v : Value} : format.Respells w v → read v = read w
  flawed {v : Value} : format.Flawed v → read v = none

end Format

/-! ## Fields -/

namespace Field

variable {f : Field}

/-- What the slot of a field holds in a record and in another spelling of it. -/
inductive SlotRespells (f : Field) : Option Value → Option Value → Prop
  | kept {w v : Value} (h : f.format.Respells w v) : SlotRespells f (some w) (some v)
  | leftOut {w : Value} (h : f.default? = some w) : SlotRespells f (some w) none
  | unwritten (h : f.default?.isSome = true) : SlotRespells f none none

/-- A slot that leaves the record beyond reading. -/
inductive SlotFlawed (f : Field) : Option Value → Prop
  | missing (h : f.default? = none) : SlotFlawed f none
  | filled {v : Value} (h : f.format.Flawed v) : SlotFlawed f (some v)

/-- A reader of slots follows the field. -/
structure ReadBy {α : Type} (f : Field) (read : Option Value → Option α) : Prop where
  respelled {w v : Option Value} : f.SlotRespells w v → read v = read w
  flawed {v : Option Value} : f.SlotFlawed v → read v = none

end Field

/-! ## Members of records -/

section Members

variable {fields : List Field} {written kept : List (String × Value)}

theorem Keeps.sublist_written (h : Keeps fields written kept) :
    (written.map Prod.fst).Sublist (fields.map Field.name) := by
  induction h with
  | nil => exact .slnil
  | kept _ _ ih => exact ih.cons_cons _
  | leftOut _ _ ih => exact ih.cons_cons _
  | unwritten _ _ ih => exact ih.cons _

theorem Keeps.sublist_kept (h : Keeps fields written kept) :
    (kept.map Prod.fst).Sublist (fields.map Field.name) := by
  induction h with
  | nil => exact .slnil
  | kept _ _ ih => exact ih.cons_cons _
  | leftOut _ _ ih => exact ih.cons _
  | unwritten _ _ ih => exact ih.cons _

theorem lookup_eq_none_of_sublist {name : String} {members : List (String × Value)}
    (hmembers : (members.map Prod.fst).Sublist (fields.map Field.name))
    (h : name ∉ fields.map Field.name) : members.lookup name = none := by
  rw [List.lookup_eq_none_iff]
  intro m hm
  rw [bne_iff_ne]
  rintro rfl
  exact h (hmembers.subset (List.mem_map_of_mem hm))

/-- The slots of a record and of another spelling of it, field by field. -/
theorem Keeps.slotRespells (h : Keeps fields written kept)
    (hnodup : (fields.map Field.name).Nodup) :
    ∀ f ∈ fields, f.SlotRespells (written.lookup f.name) (kept.lookup f.name) := by
  -- a field that is not the first one is not looked up there
  have hskip : ∀ (f g : Field) (gs : List Field) (v : Value) (members : List (String × Value)),
      f.name ∉ gs.map Field.name → g ∈ gs →
        List.lookup g.name ((f.name, v) :: members) = List.lookup g.name members := by
    intro f g gs v members hf hg
    have hne : g.name ≠ f.name := fun heq => hf (heq ▸ List.mem_map_of_mem hg)
    rw [List.lookup_cons, beq_eq_false_iff_ne.2 hne]
  induction h with
  | nil => exact fun f hf => nomatch hf
  | @kept f gs w v written kept hrespells hrest ih =>
    obtain ⟨hf, hnodup⟩ := List.nodup_cons.1 hnodup
    refine List.forall_mem_cons.2 ⟨?_, fun g hg => ?_⟩
    · simpa using .kept hrespells
    · rw [hskip f g gs w written hf hg, hskip f g gs v kept hf hg]
      exact ih hnodup g hg
  | @leftOut f gs w written kept hdefault hrest ih =>
    obtain ⟨hf, hnodup⟩ := List.nodup_cons.1 hnodup
    refine List.forall_mem_cons.2 ⟨?_, fun g hg => ?_⟩
    · rw [lookup_eq_none_of_sublist hrest.sublist_kept hf]
      simpa using .leftOut hdefault
    · rw [hskip f g gs w written hf hg]
      exact ih hnodup g hg
  | @unwritten f gs written kept hdefault hrest ih =>
    obtain ⟨hf, hnodup⟩ := List.nodup_cons.1 hnodup
    refine List.forall_mem_cons.2 ⟨?_, ih hnodup⟩
    rw [lookup_eq_none_of_sublist hrest.sublist_kept hf,
      lookup_eq_none_of_sublist hrest.sublist_written hf]
    exact .unwritten hdefault

/-- Both spellings of a record have slots, and these are spellings of each other. -/
theorem exists_slots_of_respells (hnodup : (fields.map Field.name).Nodup) {w v : Value}
    (h : (Format.record fields).Respells w v) :
    ∃ slot slot' : String → Option Value,
      w.fields? (fields.map Field.name) = some ((fields.map Field.name).map slot) ∧
      v.fields? (fields.map Field.name) = some ((fields.map Field.name).map slot') ∧
      ∀ f ∈ fields, f.SlotRespells (slot f.name) (slot' f.name) := by
  obtain ⟨written, kept, others, members, rfl, rfl, hkeeps, hperm, hothers⟩ := h
  refine ⟨(written.lookup ·), (kept.lookup ·),
    Value.fields?_ofMembers (hkeeps.sublist_written.nodup hnodup) _,
    Value.fields?_object (List.forall_mem_map.2 fun _ _ => rfl) fun name hname => ?_,
    hkeeps.slotRespells hnodup⟩
  rw [Value.slot?_perm (hperm.map _), List.map_append, Value.slot?_append,
    Value.slot?_eq_lookup (hkeeps.sublist_kept.nodup hnodup)]
  -- the members that were added have other names
  rw [List.map_map]
  intro hmem
  obtain ⟨m, hm, hkey⟩ := List.mem_map.1 hmem
  obtain rfl : m.1 = name := Option.some.inj hkey
  exact hothers m hm hname

/-- A record that is beyond reading has no slots, or one of them is the reason. -/
theorem RecordFlawed.exists_slotFlawed (hnodup : (fields.map Field.name).Nodup) {v : Value}
    (h : RecordFlawed fields v) {slots : List (Option Value)}
    (hslots : v.fields? (fields.map Field.name) = some slots) :
    ∃ slot : String → Option Value, slots = (fields.map Field.name).map slot ∧
      ∃ f ∈ fields, f.SlotFlawed (slot f.name) := by
  cases h with
  | @repeated f members hf htwice =>
    obtain ⟨slot, rfl, hslot⟩ := Value.exists_slots_of_object hslots
    have hread := hslot f.name (List.mem_map_of_mem hf)
    rw [Value.slot?_of_two_le_countP htwice] at hread
    cases hread
  | @missing f members hf hneeded habsent =>
    obtain ⟨slot, rfl, hslot⟩ := Value.exists_slots_of_object hslots
    have hread := hslot f.name (List.mem_map_of_mem hf)
    rw [Value.slot?_of_notMem habsent] at hread
    exact ⟨slot, rfl, f, hf, Option.some.inj hread ▸ .missing hneeded⟩
  | @member f members v hf hv hflawed =>
    obtain ⟨slot, rfl, hslot⟩ := Value.exists_slots_of_object hslots
    have hread := Value.slot?_of_mem hv (hslot f.name (List.mem_map_of_mem hf))
    exact ⟨slot, rfl, f, hf, hread ▸ .filled hflawed⟩
  | @item f items v hv hflawed =>
    obtain ⟨slot, rfl, hslot⟩ := Value.exists_slots_of_array hnodup hslots
    have hzip : (f.name, v) ∈ (fields.map Field.name).zip items := by
      rw [List.zip_map_left]
      exact List.mem_map.2 ⟨(f, v), hv, rfl⟩
    exact ⟨slot, rfl, f, (List.of_mem_zip hv).1, hslot _ hzip ▸ .filled hflawed⟩

end Members

/-! ## Readers -/

/-- What is made of the slots of a record: one field after the other is read, and then the
record is put together. -/
inductive Reads {α : Type} : List Field → ((String → Option Value) → Option α) → Prop
  | done (a : α) : Reads [] fun _ => some a
  | field {β : Type} {f : Field} {fields : List Field} {read : Option Value → Option β}
    {rest : β → (String → Option Value) → Option α} (h : f.ReadBy read)
    (hrest : ∀ b, Reads fields (rest b)) :
    Reads (f :: fields) fun slot => (read (slot f.name)).bind fun b => rest b slot

namespace Reads

variable {α : Type} {fields : List Field} {body : (String → Option Value) → Option α}
  {slot slot' : String → Option Value}

/-- Nothing is to be put together if there is one field only. -/
theorem last {f : Field} {read : Option Value → Option α} (h : f.ReadBy read) :
    Reads [f] fun slot => read (slot f.name) := by
  simpa using field h done

theorem respelled (h : Reads fields body)
    (hslots : ∀ f ∈ fields, f.SlotRespells (slot f.name) (slot' f.name)) :
    body slot' = body slot := by
  induction h with
  | done a => rfl
  | field hf hrest ih =>
    obtain ⟨hslot, hslots⟩ := List.forall_mem_cons.1 hslots
    beta_reduce
    rw [hf.respelled hslot]
    exact Option.bind_congr fun b _ => ih b hslots

theorem flawed (h : Reads fields body) (hslot : ∃ f ∈ fields, f.SlotFlawed (slot f.name)) :
    body slot = none := by
  induction h with
  | done a =>
    obtain ⟨f, hf, -⟩ := hslot
    cases hf
  | field hf hrest ih =>
    beta_reduce
    obtain ⟨g, hg, hflawed⟩ := hslot
    rcases List.mem_cons.1 hg with rfl | hlater
    · rw [hf.flawed hflawed, Option.bind_none]
    · rw [Option.bind_eq_none_iff]
      exact fun b _ => ih b ⟨g, hlater, hflawed⟩

end Reads

namespace Format.ReadBy

variable {α : Type} {read : Value → Option α}

theorem plain : Format.plain.ReadBy read where
  respelled := by
    rintro w _ rfl
    rfl
  flawed h := h.elim

/-- A reader of records follows the format if it does so for every field. -/
theorem record {fields : List Field} (hnodup : (fields.map Field.name).Nodup)
    {body : List (Option Value) → Option α}
    (hread : ∀ v : Value, read v = (v.fields? (fields.map Field.name)).bind body)
    (h : Reads fields fun slot => body ((fields.map Field.name).map slot)) :
    (Format.record fields).ReadBy read where
  respelled := by
    intro w v hrespells
    obtain ⟨slot, slot', hw, hv, hslots⟩ := exists_slots_of_respells hnodup hrespells
    rw [hread, hread, hw, hv]
    exact h.respelled hslots
  flawed := by
    intro v hflawed
    rw [hread, Option.bind_eq_none_iff]
    intro slots hslots
    obtain ⟨slot, rfl, hslot⟩ := RecordFlawed.exists_slotFlawed hnodup hflawed hslots
    exact h.flawed hslot

theorem list {item : Format} (h : item.ReadBy read) :
    (Format.list item).ReadBy fun v => v.array?.bind (·.mapM read) where
  respelled := by
    rintro w v ⟨ws, vs, rfl, rfl, hitems⟩
    change vs.mapM read = ws.mapM read
    induction hitems with
    | nil => rfl
    | cons hitem _ ih => rw [List.mapM_cons, List.mapM_cons, h.respelled hitem, ih]
  flawed := by
    rintro v ⟨items, rfl, item', hitem, hflawed⟩
    change items.mapM read = none
    induction items with
    | nil => cases hitem
    | cons first items ih =>
      rw [List.mapM_cons]
      rcases List.mem_cons.1 hitem with rfl | hlater
      · rw [h.flawed hflawed]
        rfl
      · rw [ih hlater]
        exact Option.bind_fun_none _

theorem choice {κ : Type} {label : κ → String} {content : κ → Format}
    {readContent : κ → Value → Option α}
    (hread : ∀ k v, read (.ofMembers [(label k, v)]) = readContent k v)
    (h : ∀ k, (content k).ReadBy (readContent k)) : (Format.choice label content).ReadBy read where
  respelled := by
    rintro w v ⟨k, w', v', rfl, rfl, hcontent⟩
    rw [hread, hread, (h k).respelled hcontent]
  flawed := by
    rintro v ⟨k, v', rfl, hcontent⟩
    rw [hread, (h k).flawed hcontent]

/-- What is made of a value afterwards does not matter. -/
theorem map {β : Type} {format : Format} (h : format.ReadBy read) (f : α → β) :
    format.ReadBy fun v => f <$> read v where
  respelled hrespells := congrArg (f <$> ·) (h.respelled hrespells)
  flawed hflawed := congrArg (f <$> ·) (h.flawed hflawed)

end Format.ReadBy

end WidgetSkin.Json
