import WidgetSkin.Design.Reader
import WidgetSkin.Proofs.Decimal.Approximate
import WidgetSkin.Proofs.Design.Numbers

/-!
# Designs that are read hold finite doubles

A number out of the range of doubles is refused, and the defaults are finite.

## Main definitions

* `HasNumbers.AllFinite` — all doubles of a value are finite.
* `OnlyFinite` — the value, if there is one, holds finite doubles only.

## Main statements

* `Design.allFinite_of_read?` — the doubles of a design that is read are finite.
-/

namespace WidgetSkin

open Json (Value)

namespace HasNumbers

variable {α β : Type}

/-- All doubles of the value are finite. -/
def AllFinite [HasNumbers α] (a : α) : Prop :=
  ∀ x ∈ numbers a, x.isFinite = true

instance [HasNumbers α] (a : α) : Decidable (AllFinite a) :=
  inferInstanceAs (Decidable (∀ x ∈ numbers a, x.isFinite = true))

theorem allFinite_float {x : Float} : AllFinite x ↔ x.isFinite = true :=
  List.forall_mem_singleton

@[simp] theorem allFinite_without (a : α) : @AllFinite α (.without α) a :=
  fun _ hx => nomatch hx

@[simp] theorem allFinite_pair [HasNumbers α] [HasNumbers β] {a : α} {b : β} :
    AllFinite (a, b) ↔ AllFinite a ∧ AllFinite b :=
  List.forall_mem_append

theorem allFinite_cons [HasNumbers α] {a : α} {as : List α} :
    AllFinite (a :: as) ↔ AllFinite a ∧ AllFinite as :=
  List.forall_mem_append

theorem allFinite_list [HasNumbers α] {as : List α} : AllFinite as ↔ ∀ a ∈ as, AllFinite a :=
  List.forall_mem_flatMap

end HasNumbers

open HasNumbers

/-! ## Records -/

theorem Size.allFinite_iff {size : Size} : AllFinite size ↔ size.isFinite = true := by
  change AllFinite (size.width, size.height) ↔ _
  simp [allFinite_float, isFinite]

theorem Scale.allFinite_iff {scale : Scale} :
    AllFinite scale ↔ scale.x.isFinite = true ∧ scale.y.isFinite = true := by
  change AllFinite (scale.x, scale.y) ↔ _
  simp [allFinite_float]

theorem Background.allFinite_iff {b : Background} :
    AllFinite b ↔ AllFinite b.position ∧ b.width.isFinite = true ∧ b.height.isFinite = true := by
  change AllFinite (b.position, b.width, b.height, b.backdropColor) ↔ _
  simp [allFinite_float]

theorem Needle.allFinite_iff {n : Needle} :
    AllFinite n ↔ n.offsetX.isFinite = true ∧ n.offsetY.isFinite = true ∧
      n.startAngle.isFinite = true ∧ n.rotationAngle.isFinite = true := by
  change AllFinite (n.source, n.offsetX, n.offsetY, n.startAngle, n.rotationAngle) ↔ _
  simp [allFinite_float]

theorem LayerSnapshot.allFinite_iff {l : LayerSnapshot} : AllFinite l ↔
    AllFinite l.payload ∧ AllFinite l.geometry.position ∧ AllFinite l.geometry.size ∧
      AllFinite l.geometry.scale ∧ l.geometry.angle.isFinite = true := by
  change AllFinite (l.id, l.name, l.measure, l.payload, (l.geometry.position, l.geometry.size,
    l.geometry.scale, l.geometry.angle), l.visible, l.locked) ↔ _
  simp [allFinite_float]

theorem Design.allFinite_iff {d : Design} : AllFinite d ↔
    AllFinite d.background ∧ (∀ l ∈ d.layers, AllFinite l) ∧ AllFinite d.settings := by
  change AllFinite (d.metadata, d.background, d.layers, d.allowScrollResize, d.settings) ↔ _
  simp [allFinite_list]

/-! ## Readers -/

section Readers

variable {α β : Type} [HasNumbers α] {a : α}

/-- The value, if there is one, holds finite doubles only. -/
def OnlyFinite (o : Option α) : Prop :=
  ∀ a, o = some a → AllFinite a

namespace OnlyFinite

protected theorem none : OnlyFinite (none : Option α) :=
  fun _ h => nomatch h

protected theorem some (h : AllFinite a) : OnlyFinite (some a) := by
  rintro _ ⟨⟩
  exact h

/-- A record is what its fields are. -/
theorem record {α : Type} {e : α ≃ β} [HasNumbers β] {a : α} (h : AllFinite (e a)) :
    @OnlyFinite α (.ofEquiv e) (.some a) :=
  letI := HasNumbers.ofEquiv e
  .some h

theorem bind [HasNumbers β] {o : Option β} {k : β → Option α} (ho : OnlyFinite o)
    (hk : ∀ b, AllFinite b → OnlyFinite (k b)) : OnlyFinite (o >>= k) := by
  intro a ha
  obtain ⟨b, hb, hkb⟩ := Option.bind_eq_some_iff.1 ha
  exact hk b (ho b hb) a hkb

/-- What is read first may hold no doubles at all. -/
theorem skip {γ : Type} {o : Option γ} {k : γ → Option α} (hk : ∀ c, OnlyFinite (k c)) :
    OnlyFinite (o >>= k) := by
  intro a ha
  obtain ⟨c, -, hkc⟩ := Option.bind_eq_some_iff.1 ha
  exact hk c a hkc

theorem mapM {read : Value → Option α} (h : ∀ v, OnlyFinite (read v)) (vs : List Value) :
    OnlyFinite (vs.mapM read) := by
  induction vs with
  | nil => exact .some fun _ hx => nomatch hx
  | cons v vs ih =>
    rw [List.mapM_cons]
    exact (h v).bind fun b hb => ih.bind fun bs hbs => .some (allFinite_cons.2 ⟨hb, hbs⟩)

theorem required {read : Value → Option α} (h : ∀ v, OnlyFinite (read v)) (slot : Option Value) :
    OnlyFinite (required slot read) :=
  .skip h

theorem optional {read : Value → Option α} (h : ∀ v, OnlyFinite (read v)) {default : α}
    (hdefault : AllFinite default) (slot : Option Value) :
    OnlyFinite (optional slot default read) := by
  cases slot with
  | none => exact .some hdefault
  | some v => exact h v

end OnlyFinite

end Readers

/-! ## Parts of a design -/

section Parts

variable (v : Value)

theorem onlyFinite_numberOf? : OnlyFinite (numberOf? v) := by
  cases v with
  | number n => exact fun x h => allFinite_float.2 (n.isFinite_of_approximate? h)
  | _ => exact .none

theorem Point.onlyFinite : OnlyFinite (ofJson? v) := by
  refine .skip fun slots => ?_
  split
  · refine .bind (.required onlyFinite_numberOf? _) fun x hx => ?_
    refine .bind (.required onlyFinite_numberOf? _) fun y hy => ?_
    exact .record (by simp [hx, hy])
  · exact .none

theorem Size.onlyFinite : OnlyFinite (ofJson? v) := by
  refine .skip fun slots => ?_
  split
  · refine .bind (.required onlyFinite_numberOf? _) fun width hwidth => ?_
    refine .bind (.required onlyFinite_numberOf? _) fun height hheight => ?_
    exact .record (by simp [hwidth, hheight])
  · exact .none

theorem Scale.onlyFinite : OnlyFinite (ofJson? v) := by
  refine .skip fun slots => ?_
  split
  · refine .bind (.required onlyFinite_numberOf? _) fun x hx => ?_
    refine .bind (.required onlyFinite_numberOf? _) fun y hy => ?_
    exact .record (by simp [hx, hy])
  · exact .none

theorem Geometry.onlyFinite : OnlyFinite (ofJson? v) := by
  refine .skip fun slots => ?_
  split
  · refine .bind (.required Point.onlyFinite _) fun position hposition => ?_
    refine .bind (.required Size.onlyFinite _) fun size hsize => ?_
    refine .bind (.optional Scale.onlyFinite (by decide) _) fun scale hscale => ?_
    refine .bind (.optional onlyFinite_numberOf? (by decide) _) fun angle hangle => ?_
    exact .record (by simp [hposition, hsize, hscale, hangle])
  · exact .none

theorem Fill.onlyFinite : OnlyFinite (ofJson? v) := by
  refine .skip fun slots => ?_
  split
  · refine .skip fun color => ?_
    refine .bind (.optional onlyFinite_numberOf? (by decide) _) fun opacity hopacity => ?_
    exact .record (by simp [hopacity])
  · exact .none

theorem TextContent.onlyFinite : OnlyFinite (ofJson? v) := by
  refine .skip fun slots => ?_
  split
  · refine .skip fun text => .skip fun fontName => ?_
    refine .bind (.required onlyFinite_numberOf? _) fun fontSize hfontSize => ?_
    refine .bind (.required Fill.onlyFinite _) fun fill hfill => ?_
    exact .record (by simp [hfontSize, hfill])
  · exact .none

theorem Needle.onlyFinite : OnlyFinite (ofJson? v) := by
  refine .skip fun slots => ?_
  split
  · refine .skip fun source => ?_
    refine .bind (.optional onlyFinite_numberOf? (by decide) _) fun offsetX hx => ?_
    refine .bind (.optional onlyFinite_numberOf? (by decide) _) fun offsetY hy => ?_
    refine .bind (.optional onlyFinite_numberOf? (by decide) _) fun startAngle hstart => ?_
    refine .bind (.optional onlyFinite_numberOf? (by decide) _) fun rotation hrotation => ?_
    exact .record (by simp [hx, hy, hstart, hrotation])
  · exact .none

theorem BarContent.onlyFinite : OnlyFinite (ofJson? v) := by
  refine .skip fun slots => ?_
  split
  · refine .bind (.required Fill.onlyFinite _) fun background hbackground => ?_
    refine .bind (.required Fill.onlyFinite _) fun foreground hforeground => ?_
    exact .record (by simp [hbackground, hforeground])
  · exact .none

theorem ShapeContent.onlyFinite : OnlyFinite (ofJson? v) := by
  refine .skip fun slots => ?_
  split
  · refine .skip fun outline => ?_
    refine .bind (.required Fill.onlyFinite _) fun fill hfill => ?_
    exact .record (by simp [hfill])
  · exact .none

theorem Payload.onlyFinite_ofKind? (kind : LayerKind) : OnlyFinite (ofKind? v kind) := by
  intro p h
  cases kind <;> obtain ⟨c, hc, rfl⟩ := Option.map_eq_some_iff.1 h
  · exact TextContent.onlyFinite v c hc
  · exact allFinite_without c
  · exact Needle.onlyFinite v c hc
  · exact BarContent.onlyFinite v c hc
  · exact ShapeContent.onlyFinite v c hc

theorem Payload.onlyFinite : OnlyFinite (ofJson? v) := by
  unfold ofJson?
  split
  · exact .skip fun kind => onlyFinite_ofKind? _ kind
  · exact .none

theorem LayerSnapshot.onlyFinite : OnlyFinite (ofJson? v) := by
  refine .skip fun slots => ?_
  split
  · refine .skip fun id => .skip fun name => .skip fun measure => ?_
    refine .bind (.required Payload.onlyFinite _) fun payload hpayload => ?_
    refine .bind (.required Geometry.onlyFinite _) fun geometry hgeometry => ?_
    refine .skip fun visible => .skip fun locked => ?_
    exact .record (by simp [hpayload, hgeometry])
  · exact .none

theorem Background.onlyFinite : OnlyFinite (ofJson? v) := by
  refine .skip fun slots => ?_
  split
  · refine .bind (.required Point.onlyFinite _) fun position hposition => ?_
    refine .bind (.required onlyFinite_numberOf? _) fun width hwidth => ?_
    refine .bind (.required onlyFinite_numberOf? _) fun height hheight => ?_
    refine .skip fun backdropColor => ?_
    exact .record (by simp [hposition, hwidth, hheight])
  · exact .none

theorem Settings.onlyFinite : OnlyFinite (ofJson? v) := by
  refine .skip fun slots => ?_
  split
  · refine .skip fun updateMs => ?_
    refine .bind (.optional onlyFinite_numberOf? (by decide) _) fun correction hcorrection => ?_
    refine .bind (.optional onlyFinite_numberOf? (by decide) _) fun increment hincrement => ?_
    refine .bind (.optional onlyFinite_numberOf? (by decide) _) fun minScale hminScale => ?_
    refine .skip fun defaultSkinName => .skip fun skinFileName => ?_
    exact .record (by simp [hcorrection, hincrement, hminScale])
  · exact .none

theorem onlyFinite_layersOf? : OnlyFinite (layersOf? v) :=
  .skip fun items => .mapM LayerSnapshot.onlyFinite items

theorem Design.onlyFinite : OnlyFinite (ofJson? v) := by
  refine .skip fun slots => ?_
  split
  · refine .skip fun metadata => ?_
    refine .bind (.optional Background.onlyFinite (by decide) _) fun background hbackground => ?_
    refine .bind (.optional onlyFinite_layersOf? (by decide) _) fun layers hlayers => ?_
    refine .skip fun allowScrollResize => ?_
    refine .bind (.optional Settings.onlyFinite (by decide) _) fun settings hsettings => ?_
    exact .record (by simp [hbackground, hlayers, hsettings])
  · exact .none

end Parts

/-- The doubles of a design that is read are finite. -/
theorem Design.allFinite_of_read? {text : String} {d : Design} (h : read? text = some d) :
    AllFinite d :=
  OnlyFinite.skip (o := Json.parse? (Text.symbols text)) Design.onlyFinite d h

end WidgetSkin
