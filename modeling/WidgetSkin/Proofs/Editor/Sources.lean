import WidgetSkin.Proofs.Editor.Measures

/-!
# Files that layers are given

A raster layer is given a file when it is created and when it is edited to show another one. On a
sheet, the record of the layer then has that file and the size of it, and nothing but another
file changes either: where an image is to be shown in another box its geometry is scaled, unless
the box that it has is empty.

## Main definitions

* `Sourcing` — a layer is given a file of a size.
* `Sheet.sourced?` — what an event gives to a layer.
* `Sheet.Shows` — a sheet whose raster layers show what they were last given.

## Main statements

* `Sourcing.last?_concat`, `Sourcing.last?_append_of_ne` — what a layer was last given.
* `LayerEdit.sourcing?_of_revise?` — only another file changes what a record shows.
* `Sheet.Shows.after` — one more event.
-/

namespace WidgetSkin

/-! ## Files that layers are given -/

/-- A layer is given an image file of a size. -/
structure Sourcing where
  id : LayerId
  path : String
  size : Size
deriving DecidableEq

/-- What a layer was last given. -/
def Sourcing.last? (id : LayerId) (past : List Sourcing) : Option Sourcing :=
  (past.filter fun x => x.id = id).getLast?

namespace Sourcing

variable {id : LayerId} {past : List Sourcing} {x : Sourcing}

theorem mem_of_last? (h : last? id past = some x) : x ∈ past ∧ x.id = id := by
  simpa using List.mem_filter.1 (List.mem_of_getLast? h)

theorem last?_eq_none (h : ∀ x ∈ past, x.id ≠ id) : last? id past = none := by
  rw [last?, List.filter_eq_nil_iff.2 (by simpa using h)]
  rfl

/-- The file that a layer is given now is the last one. -/
theorem last?_concat (past : List Sourcing) (hid : x.id = id) :
    last? id (past ++ [x]) = some x := by
  simp [last?, List.filter_append, hid]

/-- What other layers are given does not count. -/
theorem last?_append_of_ne {new : Option Sourcing} (h : ∀ x, new = some x → x.id ≠ id) :
    last? id (past ++ new.toList) = last? id past := by
  have hnil : new.toList.filter (fun x => x.id = id) = [] :=
    List.filter_eq_nil_iff.2 fun x hx => by simpa using h x (Option.mem_toList.1 hx)
  rw [last?, List.filter_append, hnil, List.append_nil, last?]

end Sourcing

/-! ## What records show -/

theorem Payload.isRaster_kind (payload : Payload) :
    payload.kind.isRaster = payload.imageSource?.isSome := by
  cases payload <;> rfl

/-- What a new layer is given, if it is of a raster kind. -/
def Creation.sourcing? (new : Creation) (id : LayerId) : Option Sourcing :=
  new.payload.imageSource?.map fun path => ⟨id, path, new.geometry.size⟩

/-- The file that a record shows, with the box that it has. -/
def Record.sourcing? (r : Record) : Option Sourcing :=
  Creation.sourcing? ⟨r.payload, r.geometry⟩ r.id

theorem Record.sourcing?_congr {r r' : Record} (hid : r'.id = r.id)
    (hsource : r'.payload.imageSource? = r.payload.imageSource?)
    (hsize : r.kind.isRaster = true → r'.geometry.size = r.geometry.size) :
    r'.sourcing? = r.sourcing? := by
  have hraster : r.kind.isRaster = r.payload.imageSource?.isSome := r.payload.isRaster_kind
  rw [sourcing?, sourcing?, Creation.sourcing?, Creation.sourcing?, hsource, hid]
  cases hcase : r.payload.imageSource? with
  | none => rfl
  | some path => rw [hsize (by rw [hraster, hcase]; rfl)]

/-- A record is given the file that it shows. -/
theorem Record.id_of_sourcing? {r : Record} {x : Sourcing} (h : r.sourcing? = some x) :
    x.id = r.id := by
  obtain ⟨path, -, rfl⟩ := Option.map_eq_some_iff.1 h
  rfl

namespace Payload

variable {payload payload' : Payload}

theorem imageSource?_of_mapText? {f : TextContent → TextContent}
    (h : payload.mapText? f = some payload') : payload'.imageSource? = payload.imageSource? := by
  cases payload <;> cases h
  rfl

theorem imageSource?_of_mapBar? {f : BarContent → BarContent}
    (h : payload.mapBar? f = some payload') : payload'.imageSource? = payload.imageSource? := by
  cases payload <;> cases h
  rfl

theorem imageSource?_of_mapShape? {f : ShapeContent → ShapeContent}
    (h : payload.mapShape? f = some payload') : payload'.imageSource? = payload.imageSource? := by
  cases payload <;> cases h
  rfl

end Payload

@[simp] theorem Edit.imageSource?_previewed (measure : String) (payload : Payload) :
    (Edit.previewed measure payload).imageSource? = payload.imageSource? := by
  cases payload <;> rfl

theorem Edit.imageSource?_withSource {payload : Payload} (h : payload.kind.isRaster = true)
    (path : String) : (Edit.withSource path payload).imageSource? = some path := by
  cases payload with
  | image _ | rotator _ => rfl
  | text _ | bar _ | shape _ => cases h

theorem Needle.source_of_setProperty {n turned : Needle} {name value : String}
    (h : n.setProperty name value = .ok turned) : turned.source = n.source := by
  unfold setProperty at h
  split at h
  · cases h
  · split at h
    · cases h
    · split at h
      · cases h
      · cases h
        exact n.source_set _ _

/-- A positive box of an image is kept. -/
theorem Edit.size_resized {isRaster : Bool} {g : Geometry}
    (hpositive : isRaster = true → g.size.isPositive = true) (hraster : isRaster = true)
    (box : Size) : (Edit.resized isRaster box g).size = g.size := by
  rw [resized, if_pos ⟨hraster, hpositive hraster⟩]

/-- Only another file changes what a record shows, if its box is positive. -/
theorem LayerEdit.sourcing?_of_revise? {s : Surroundings} {r r' : Record} {change : LayerEdit}
    (hpositive : r.kind.isRaster = true → r.geometry.size.isPositive = true)
    (hchange : ∀ path, change ≠ .imageSource path) (h : change.revise? s r = some r') :
    r'.sourcing? = r.sourcing? := by
  have hid : r'.id = r.id := congrArg Identity.id (identity_eq_of_revise? h)
  have hcontent : ∀ {f : Payload → Option Payload},
      (∀ {payload}, f r.payload = some payload →
        payload.imageSource? = r.payload.imageSource?) →
      r.withContent? f = some r' → r'.sourcing? = r.sourcing? := by
    intro f hf h
    obtain ⟨payload, hpayload, rfl⟩ := Option.map_eq_some_iff.1 h
    exact Record.sourcing?_congr rfl (hf hpayload) fun _ => rfl
  cases change with
  | measure m =>
    obtain ⟨_, -, rfl⟩ := Option.map_eq_some_iff.1 h
    exact Record.sourcing?_congr rfl (Edit.imageSource?_previewed m r.payload) fun _ => rfl
  | text _ | font _ | fontSize _ | textFill _ => exact hcontent Payload.imageSource?_of_mapText? h
  | barFill _ _ => exact hcontent Payload.imageSource?_of_mapBar? h
  | shapeFill _ => exact hcontent Payload.imageSource?_of_mapShape? h
  | imageSource path => exact absurd rfl (hchange path)
  | property name value =>
    rw [revise?] at h
    split at h
    · next n hpayload =>
      obtain ⟨turned, hturned, rfl⟩ := Option.map_eq_some_iff.1 h
      have hsource := Needle.source_of_setProperty (toOption_eq_some_iff.1 hturned)
      refine Record.sourcing?_congr rfl ?_ fun _ => ?_
      · rw [hpayload]
        exact congrArg some hsource
      · -- A start angle turns the needle in its box.
        dsimp only
        split <;> rfl
    all_goals cases h
  | size box =>
    cases h
    exact Record.sourcing?_congr rfl rfl fun hraster =>
      Edit.size_resized hpositive hraster box
  | position _ | scale _ | angle _ | toggleVisibility | toggleLock =>
    cases h
    exact Record.sourcing?_congr rfl rfl fun _ => rfl

/-! ## Sheets -/

namespace Sheet

variable {p q : Sheet} {past : List Sourcing} {event : Event}

/-- What an event gives to a layer: its file when it is created, and another one when it is
edited, if that can be measured. -/
def sourced? (p : Sheet) : Event → Option Sourcing
  | .operation s (.edit id (.imageSource path)) =>
    ((p.record? id).filter fun r => r.kind.isRaster).bind fun _ =>
      (s.imageSize? path).map fun size => ⟨id, path, size⟩
  | .operation s op => (p.newborn? (.operation s op)).bind Record.sourcing?
  | .drag .. => none

/-- A sheet whose raster layers show what they were last given. -/
structure Shows (p : Sheet) (past : List Sourcing) : Prop where
  le_lastId : ∀ x ∈ past, x.id.val ≤ p.lastId
  sourcing?_eq : ∀ r ∈ p.records, r.sourcing? = Sourcing.last? r.id past

namespace Shows

/-- A raster layer was given a file. -/
theorem exists_last? (h : p.Shows past) {r : Record} (hr : r ∈ p.records)
    (hraster : r.kind.isRaster = true) : ∃ x, Sourcing.last? r.id past = some x := by
  have hkind : r.kind.isRaster = r.payload.imageSource?.isSome := r.payload.isRaster_kind
  obtain ⟨path, hpath⟩ := Option.isSome_iff_exists.1 (hkind.symm.trans hraster)
  exact ⟨_, (h.sourcing?_eq r hr).symm.trans (Option.map_eq_some_iff.2 ⟨path, hpath, rfl⟩)⟩

/-- The box of a raster layer is positive if all files were. -/
theorem isPositive_size (h : p.Shows past) (hpast : ∀ x ∈ past, x.size.isPositive = true)
    {r : Record} (hr : r ∈ p.records) (hraster : r.kind.isRaster = true) :
    r.geometry.size.isPositive = true := by
  obtain ⟨x, hx⟩ := h.exists_last? hr hraster
  obtain ⟨path, -, rfl⟩ := Option.map_eq_some_iff.1 ((h.sourcing?_eq r hr).trans hx)
  exact hpast ⟨r.id, path, r.geometry.size⟩ (Sourcing.mem_of_last? hx).1

/-- An event that gives nothing, and after which every record shows what one has shown. -/
theorem of_quiet (h : p.Shows past) (hnone : p.sourced? event = none)
    (hlast : q.lastId = p.lastId)
    (hrecords : ∀ r' ∈ q.records, ∃ r ∈ p.records, r'.id = r.id ∧ r'.sourcing? = r.sourcing?) :
    q.Shows (past ++ (p.sourced? event).toList) := by
  rw [hnone, Option.toList_none, List.append_nil]
  refine ⟨hlast ▸ h.le_lastId, fun r' hr' => ?_⟩
  obtain ⟨r, hr, hid, hsame⟩ := hrecords r' hr'
  rw [hsame, hid, h.sourcing?_eq r hr]

/-- The records that are left, in whatever order, show what they have shown. -/
theorem of_subset (h : p.Shows past) (hnone : p.sourced? event = none)
    (hlast : q.lastId = p.lastId) (hsubset : ∀ r ∈ q.records, r ∈ p.records) :
    q.Shows (past ++ (p.sourced? event).toList) :=
  h.of_quiet hnone hlast fun r hr => ⟨r, hsubset r hr, rfl, rfl⟩

/-- Records that are rewritten and show what they have shown. -/
theorem of_rewrite (h : p.Shows past) (hnone : p.sourced? event = none) {has : Record → Bool}
    {f : Record → Record}
    (hf : ∀ r ∈ p.records, (f r).id = r.id ∧ (f r).sourcing? = r.sourcing?) :
    (p.rewrite has f).Shows (past ++ (p.sourced? event).toList) := by
  refine h.of_quiet hnone rfl fun r' hr' => ?_
  obtain ⟨r, hr, rfl⟩ := List.mem_map.1 hr'
  refine ⟨r, hr, ?_⟩
  split
  · exact hf r hr
  · exact ⟨rfl, rfl⟩

/-- A new layer shows what it is given. -/
theorem append (h : p.Shows past) (hle : ∀ r ∈ p.records, r.id.val ≤ p.lastId)
    (new? : Option Creation) :
    (p.append new?).Shows
      (past ++ ((new?.map p.nextRecord).bind Record.sourcing?).toList) := by
  cases new? with
  | none => exact (List.append_nil past).symm ▸ h
  | some new =>
    have hnew : ∀ x, (p.nextRecord new).sourcing? = some x → x.id.val = p.lastId + 1 :=
      fun x hx => congrArg LayerId.val (Record.id_of_sourcing? hx)
    constructor
    · intro x hx
      rcases List.mem_append.1 hx with hold | hlast
      · exact Nat.le_succ_of_le (h.le_lastId x hold)
      · exact Nat.le_of_eq (hnew x (Option.mem_toList.1 hlast))
    · intro r hr
      rcases List.mem_append.1 hr with hold | hlast
      · rw [h.sourcing?_eq r hold, Sourcing.last?_append_of_ne]
        intro x hx hid
        have hold := hle r hold
        have hnext := hnew x hx
        rw [hid] at hnext
        omega
      · obtain rfl := List.mem_singleton.1 hlast
        rw [Option.map_some, Option.bind_some]
        cases hsourcing : (p.nextRecord new).sourcing? with
        | none =>
          rw [Option.toList_none, List.append_nil, Sourcing.last?_eq_none]
          rintro x hx hid
          have hx := h.le_lastId x hx
          rw [hid] at hx
          exact Nat.not_succ_le_self _ hx
        | some x =>
          exact (Sourcing.last?_concat past (Record.id_of_sourcing? hsourcing)).symm

/-- A layer that is given another file shows that one, in its size. -/
theorem edit_imageSource (h : p.Shows past) (hnodup : p.order.Nodup)
    (hle : ∀ r ∈ p.records, r.id.val ≤ p.lastId) (s : Surroundings) (id : LayerId)
    (path : String) :
    (p.after (.operation s (.edit id (.imageSource path)))).Shows
      (past ++ (p.sourced? (.operation s (.edit id (.imageSource path)))).toList) := by
  constructor
  · intro x hx
    rcases List.mem_append.1 hx with hold | hnew
    · exact h.le_lastId x hold
    · obtain ⟨r, hr, hsize⟩ := Option.bind_eq_some_iff.1 (Option.mem_toList.1 hnew)
      obtain ⟨size, -, rfl⟩ := Option.map_eq_some_iff.1 hsize
      obtain ⟨hmem, rfl⟩ := record?_eq_some (Option.filter_eq_some_iff.1 hr).1
      exact hle r hmem
  · intro r' hr'
    obtain ⟨r, hr, rfl⟩ := List.mem_map.1 hr'
    split
    · next hid =>
      obtain rfl : r.id = id := by simpa using hid
      have hgiven : p.sourced? (.operation s (.edit r.id (.imageSource path))) =
          if r.kind.isRaster then (s.imageSize? path).map fun size => ⟨r.id, path, size⟩
          else none := by
        rw [sourced?, record?_eq hnodup hr, Option.filter_some]
        split <;> rfl
      rw [hgiven]
      simp only [LayerEdit.revise?]
      split
      · next hraster =>
        cases hsize : s.imageSize? path with
        | none => simpa using h.sourcing?_eq r hr
        | some size =>
          have hlast : Sourcing.last? r.id (past ++ [⟨r.id, path, size⟩]) = _ :=
            Sourcing.last?_concat past rfl
          have hsource := Edit.imageSource?_withSource hraster path
          simp [Record.sourcing?, Creation.sourcing?, hsource, hlast]
      · simpa using h.sourcing?_eq r hr
    · next hid =>
      rw [h.sourcing?_eq r hr, Sourcing.last?_append_of_ne]
      intro x hx hxid
      obtain ⟨r₀, -, hsize⟩ := Option.bind_eq_some_iff.1 hx
      obtain ⟨size, -, rfl⟩ := Option.map_eq_some_iff.1 hsize
      exact hid (decide_eq_true hxid.symm)

/-- After one more event the raster layers show what they were last given, if all files so far
were of positive sizes. -/
theorem after (h : p.Shows past) (hnodup : p.order.Nodup)
    (hle : ∀ r ∈ p.records, r.id.val ≤ p.lastId)
    (hpast : ∀ x ∈ past, x.size.isPositive = true) (event : Event) :
    (p.after event).Shows (past ++ (p.sourced? event).toList) := by
  cases event with
  | drag k point => exact h.of_rewrite rfl fun r _ => ⟨rfl, rfl⟩
  | operation s op =>
    have hcreated : ∀ op : EditorOp, (p.append (op.creation? s p.config p.tool)).Shows
        (past ++ ((p.newborn? (.operation s op)).bind Record.sourcing?).toList) :=
      fun op => h.append hle _
    cases op with
    | createText point words => exact hcreated (.createText point words)
    | createBar point => exact hcreated (.createBar point)
    | createShape outline point => exact hcreated (.createShape outline point)
    | createImage _ | createRotator _ | create _ _ => exact hcreated _
    | place point =>
      have hselect : Shows { p with tool := .select } past := ⟨h.le_lastId, h.sourcing?_eq⟩
      exact hselect.append hle _
    | delete id => exact h.of_subset rfl rfl fun r hr => (List.mem_filter.1 hr).1
    | reorder ids =>
      change (p.apply s (.reorder ids)).Shows _
      rw [apply]
      split
      · next hperm =>
        exact h.of_subset rfl rfl fun r hr => (filterMap_record?_perm hnodup hperm).mem_iff.1 hr
      · exact h.of_subset rfl rfl fun r hr => hr
    | move id direction =>
      cases direction with
      | up => exact h.of_subset rfl rfl fun r hr => (pullUp_perm _ _).mem_iff.1 hr
      | down => exact h.of_subset rfl rfl fun r hr => (pushDown_perm _ _).mem_iff.1 hr
    | edit id change =>
      by_cases hchange : ∃ path, change = .imageSource path
      · obtain ⟨path, rfl⟩ := hchange
        exact h.edit_imageSource hnodup hle s id path
      · have hother : ∀ path, change ≠ .imageSource path := fun path heq => hchange ⟨path, heq⟩
        have hnone : p.sourced? (.operation s (.edit id change)) = none := by
          cases change with
          | imageSource path => exact absurd rfl (hother path)
          | _ => rfl
        change (p.apply s (.edit id change)).Shows _
        rw [apply]
        split
        · refine h.of_rewrite hnone fun r hr => ?_
          refine ⟨congrArg Identity.id (change.identity_getD_revise? s r), ?_⟩
          cases hrevise : change.revise? s r with
          | none => rfl
          | some r' =>
            exact LayerEdit.sourcing?_of_revise? (h.isPositive_size hpast hr) hother hrevise
        · exact h.of_subset hnone rfl fun r hr => hr
    | setBackgroundSize width height =>
      change (p.apply s (.setBackgroundSize width height)).Shows _
      rw [apply]
      split <;> exact h.of_subset rfl rfl fun r hr => hr
    | setTool _ | select _ | clearSelection | setBackgroundPosition _ | setBackdropColor _ =>
      exact h.of_subset rfl rfl fun r hr => hr

end Shows

end Sheet

end WidgetSkin
