import WidgetSkin.Design.Writer
import WidgetSkin.Proofs.Decimal.Shortest
import WidgetSkin.Proofs.Design.Finite
import WidgetSkin.Proofs.Json.RoundTrip
import WidgetSkin.Proofs.Json.Slots

/-!
# Saved designs read back

Reading undoes writing field by field, so that a design comes back with each of its doubles
replaced by the double that is read where it was written. A double that is not finite is written
as a null, which no number is read from. The numeral of a finite double is nearer to it than to
any other double; it comes back exactly if the numeral is read as the double nearest to it.

## Main definitions

* `reread?` — the double that is read where another one was written.
* `ReadNearest` — the numeral of a double is read as the double nearest to the numeral.

## Main statements

* `Design.read?_pretty_eq` — a saved design comes back with its doubles reread.
* `reread?_eq_self_iff` — the doubles that come back.
* `Design.read?_pretty_eq_none` — designs that are refused.
* `Design.read?_pretty` — the designs that come back.
-/

namespace WidgetSkin

open Json (Value)
open HasNumbers

/-! ## Parts of a design -/

/-- The number that is read where a double was saved. -/
def reread? (x : Float) : Option Float :=
  numberOf? (jsonNumber x)

section Parts

@[simp] theorem numberOf?_jsonNumber (x : Float) : numberOf? (jsonNumber x) = reread? x := rfl

@[simp] theorem string?_ofString (s : String) : (Value.ofString s).string? = some s := rfl

@[simp] theorem required_some {α : Type} (v : Value) (read : Value → Option α) :
    required (some v) read = read v := rfl

@[simp] theorem optional_some {α : Type} (v : Value) (default : α) (read : Value → Option α) :
    optional (some v) default read = read v := rfl

@[simp] theorem optional_none {α : Type} (default : α) (read : Value → Option α) :
    optional none default read = some default := rfl

theorem natBelow?_jsonNat {bound n : Nat} (h : n < bound) :
    (jsonNat n).natBelow? bound = some n := by
  simp [jsonNat, Value.natBelow?, Decimal.Numeral.ofNat, Decimal.Numeral.isInteger, h]

@[simp] theorem Point.ofJson?_toJson (p : Point) : ofJson? p.toJson = mapNumbers? reread? p := by
  rw [mapNumbers?_ofEquiv, toJson, ofJson?, Value.fields?_ofMembers (by simp)]
  simp [List.lookup]

@[simp] theorem Size.ofJson?_toJson (s : Size) : ofJson? s.toJson = mapNumbers? reread? s := by
  rw [mapNumbers?_ofEquiv, toJson, ofJson?, Value.fields?_ofMembers (by simp)]
  simp [List.lookup]

@[simp] theorem Scale.ofJson?_toJson (s : Scale) : ofJson? s.toJson = mapNumbers? reread? s := by
  rw [mapNumbers?_ofEquiv, toJson, ofJson?, Value.fields?_ofMembers (by simp)]
  simp [List.lookup]

@[simp] theorem Geometry.ofJson?_toJson (g : Geometry) :
    ofJson? g.toJson = mapNumbers? reread? g := by
  rw [mapNumbers?_ofEquiv, toJson, ofJson?, Value.fields?_ofMembers (by simp)]
  simp [List.lookup, Option.bind_assoc]

@[simp] theorem Fill.ofJson?_toJson (f : Fill) : ofJson? f.toJson = mapNumbers? reread? f := by
  rw [mapNumbers?_ofEquiv, toJson, ofJson?, Value.fields?_ofMembers (by simp)]
  simp [List.lookup]

@[simp] theorem TextContent.ofJson?_toJson (c : TextContent) :
    ofJson? c.toJson = mapNumbers? reread? c := by
  rw [mapNumbers?_ofEquiv, toJson, ofJson?, Value.fields?_ofMembers (by simp)]
  simp [List.lookup, Option.bind_assoc]

@[simp] theorem imageSourceOf?_ofMembers (source : String) :
    imageSourceOf? (.ofMembers [("source", .ofString source)]) = some source := by
  rw [imageSourceOf?, Value.fields?_ofMembers (by simp)]
  simp [List.lookup]

@[simp] theorem Needle.ofJson?_toJson (n : Needle) : ofJson? n.toJson = mapNumbers? reread? n := by
  rw [mapNumbers?_ofEquiv, toJson, ofJson?, Value.fields?_ofMembers (by simp)]
  simp [List.lookup, Option.bind_assoc]

@[simp] theorem BarContent.ofJson?_toJson (c : BarContent) :
    ofJson? c.toJson = mapNumbers? reread? c := by
  rw [mapNumbers?_ofEquiv, toJson, ofJson?, Value.fields?_ofMembers (by simp)]
  simp [List.lookup]

@[simp] theorem Outline.ofJson?_label (o : Outline) : ofJson? (.ofString o.label) = some o := by
  cases o <;> rfl

@[simp] theorem ShapeContent.ofJson?_toJson (c : ShapeContent) :
    ofJson? c.toJson = mapNumbers? reread? c := by
  rw [mapNumbers?_ofEquiv, toJson, ofJson?, Value.fields?_ofMembers (by simp)]
  simp [List.lookup]

theorem LayerKind.ofLabel?_label (k : LayerKind) : ofLabel? k.label = some k := by
  cases k <;> rfl

theorem Payload.ofJson?_ofMembers (k : LayerKind) (v : Value) :
    ofJson? (.ofMembers [(k.label, v)]) = ofKind? v k := by
  change (LayerKind.ofLabel? k.label).bind (ofKind? v) = _
  rw [LayerKind.ofLabel?_label, Option.bind_some]

@[simp] theorem Payload.ofJson?_toJson (p : Payload) :
    ofJson? p.toJson = mapNumbers? reread? p := by
  rw [toJson.eq_def, ofJson?_ofMembers, mapNumbers?_ofEquiv]
  cases p <;> simp [kind, ofKind?, equivSum, Function.comp_def]

@[simp] theorem natBelow?_id (id : UInt64) :
    (jsonNat id.toNat).natBelow? UInt64.size = some id.toNat :=
  natBelow?_jsonNat id.toNat_lt

@[simp] theorem natBelow?_updateMs (updateMs : UInt32) :
    (jsonNat updateMs.toNat).natBelow? UInt32.size = some updateMs.toNat :=
  natBelow?_jsonNat updateMs.toNat_lt

@[simp] theorem bool?_bool (b : Bool) : (Value.bool b).bool? = some b := rfl

@[simp] theorem textOrNull?_ofString (s : String) :
    textOrNull? (.ofString s) = some (some s) := rfl

@[simp] theorem LayerSnapshot.ofJson?_toJson (l : LayerSnapshot) :
    ofJson? l.toJson = mapNumbers? reread? l := by
  obtain ⟨id, name, measure, payload, geometry, visible, locked⟩ := l
  rw [mapNumbers?_ofEquiv, toJson, ofJson?]
  -- a layer without a measure is written without the field
  cases measure with
  | none =>
    rw [Value.fields?_ofMembers (by simp)]
    simp [List.lookup, Option.bind_assoc]
  | some measure =>
    rw [Value.fields?_ofMembers (by simp)]
    simp [List.lookup, Option.bind_assoc]

@[simp] theorem Background.ofJson?_toJson (b : Background) :
    ofJson? b.toJson = mapNumbers? reread? b := by
  rw [mapNumbers?_ofEquiv, toJson, ofJson?, Value.fields?_ofMembers (by simp)]
  simp [List.lookup, Option.bind_assoc]

@[simp] theorem Metadata.ofJson?_toJson (m : Metadata) :
    ofJson? m.toJson = mapNumbers? reread? m := by
  rw [mapNumbers?_ofEquiv, toJson, ofJson?, Value.fields?_ofMembers (by simp)]
  simp [List.lookup]

@[simp] theorem Settings.ofJson?_toJson (s : Settings) :
    ofJson? s.toJson = mapNumbers? reread? s := by
  rw [mapNumbers?_ofEquiv, toJson, ofJson?, Value.fields?_ofMembers (by simp)]
  simp [List.lookup, Option.bind_assoc]

@[simp] theorem layersOf?_toJson (layers : List LayerSnapshot) :
    layersOf? (.array (layers.map LayerSnapshot.toJson)) = mapNumbers? reread? layers := by
  change (layers.map LayerSnapshot.toJson).mapM LayerSnapshot.ofJson? =
    layers.mapM (mapNumbers? reread?)
  simp [List.mapM_map, Function.comp_def]

theorem Design.ofJson?_toJson (d : Design) : ofJson? d.toJson = mapNumbers? reread? d := by
  rw [mapNumbers?_ofEquiv, toJson, ofJson?, Value.fields?_ofMembers (by simp)]
  simp [List.lookup, Option.bind_assoc]

end Parts

/-! ## The text of a design -/

section Text

theorem textual_jsonNumber (x : Float) : (jsonNumber x).Textual := by
  unfold jsonNumber
  split
  · exact .number _
  · exact .null

theorem Fill.textual_toJson (f : Fill) : f.toJson.Textual := by
  refine .object ?_
  simp [textual_jsonNumber, Value.Textual.string]

theorem Point.textual_toJson (p : Point) : p.toJson.Textual := by
  refine .object ?_
  simp [textual_jsonNumber]

theorem Geometry.textual_toJson (g : Geometry) : g.toJson.Textual := by
  have hsize : g.size.toJson.Textual := .object (by simp [textual_jsonNumber])
  have hscale : g.scale.toJson.Textual := .object (by simp [textual_jsonNumber])
  refine .object ?_
  simp [textual_jsonNumber, Point.textual_toJson, hsize, hscale]

theorem Payload.textual_toJson (p : Payload) : p.toJson.Textual := by
  refine .object ?_
  rw [List.forall_mem_singleton]
  cases p <;> refine .object ?_ <;>
    simp [textual_jsonNumber, Value.Textual.string, Fill.textual_toJson]

theorem LayerSnapshot.textual_toJson (l : LayerSnapshot) : l.toJson.Textual := by
  refine .object ?_
  have hid : (jsonNat l.id.toNat).Textual := .number _
  cases hmeasure : l.measure <;>
    simp [hid, Value.Textual.string, Value.Textual.bool, Payload.textual_toJson,
      Geometry.textual_toJson]

theorem Design.textual_toJson (d : Design) : d.toJson.Textual := by
  have hmetadata : d.metadata.toJson.Textual := .object (by simp [Value.Textual.string])
  have hbackground : d.background.toJson.Textual :=
    .object (by simp [textual_jsonNumber, Value.Textual.string, Point.textual_toJson])
  have hlayers : (Value.array (d.layers.map LayerSnapshot.toJson)).Textual :=
    .array (by simp [LayerSnapshot.textual_toJson])
  have hinterval : (jsonNat d.settings.updateMs.toNat).Textual := .number _
  have hsettings : d.settings.toJson.Textual :=
    .object (by simp [textual_jsonNumber, Value.Textual.string, hinterval])
  refine .object ?_
  simp [hmetadata, hbackground, hlayers, hsettings, Value.Textual.bool]

/-- A saved design comes back with its doubles reread. -/
theorem Design.read?_pretty_eq (d : Design) : read? d.pretty = mapNumbers? reread? d := by
  rw [read?, ofSymbols?, pretty, Json.parse?_symbols_pretty d.textual_toJson, Option.bind_some,
    ofJson?_toJson]

end Text

/-! ## Doubles that come back -/

/-- The numeral of a double is read as the double nearest to the numeral. -/
def ReadNearest (x : Float) : Prop :=
  (Decimal.Style.json.numeral x).approximate? = some (Decimal.Style.json.numeral x).toFloat

instance (x : Float) : Decidable (ReadNearest x) :=
  inferInstanceAs (Decidable (_ = _))

theorem reread?_eq_none {x : Float} (h : x.isFinite = false) : reread? x = none := by
  rw [reread?, jsonNumber, h]
  rfl

theorem reread?_eq_self_iff {x : Float} :
    reread? x = some x ↔ x.isFinite = true ∧ ReadNearest x := by
  cases h : x.isFinite with
  | false => simp [reread?_eq_none h]
  | true =>
    rw [reread?, jsonNumber, h, if_pos rfl, numberOf?, ReadNearest,
      Decimal.Style.toFloat_numeral _ h]
    simp

/-- Doubles that are written with up to 53 bits of digits and a small power of ten come back. -/
theorem readNearest_of_short {x : Float}
    (hdigits : (Decimal.Style.json.numeral x).coefficient < 2 ^ 53)
    (hscale : (Decimal.Style.json.numeral x).scale.natAbs ≤ 22) : ReadNearest x :=
  Decimal.Numeral.approximate?_eq hdigits hscale

/-! ## Designs that come back -/

theorem Design.read?_pretty_eq_self_iff (d : Design) :
    read? d.pretty = some d ↔ AllFinite d ∧ ∀ x ∈ numbers d, ReadNearest x := by
  rw [read?_pretty_eq, mapNumbers?_eq_self_iff, AllFinite, ← forall₂_and]
  simp only [reread?_eq_self_iff]

/-- A saved design with a double that is not finite is refused. -/
theorem Design.read?_pretty_eq_none {d : Design} (h : ¬ AllFinite d) : read? d.pretty = none := by
  obtain ⟨x, hx, hfinite⟩ : ∃ x ∈ numbers d, x.isFinite = false := by
    simpa [AllFinite] using h
  rw [read?_pretty_eq]
  exact mapNumbers?_eq_none hx (reread?_eq_none hfinite)

/-- A saved design comes back exactly if all of its doubles are finite and their numerals are
read as the nearest doubles. A design with a double that is not finite is refused, but no design
that was read has one. -/
theorem Design.read?_pretty (d : Design) :
    (read? d.pretty = some d ↔ AllFinite d ∧ ∀ x ∈ numbers d, ReadNearest x) ∧
      (¬ AllFinite d → read? d.pretty = none) ∧
      ∀ text, read? text = some d → (∀ x ∈ numbers d, ReadNearest x) → read? d.pretty = some d := by
  refine ⟨d.read?_pretty_eq_self_iff, read?_pretty_eq_none, fun text htext hread => ?_⟩
  exact d.read?_pretty_eq_self_iff.2 ⟨allFinite_of_read? htext, hread⟩

example : AllFinite ({} : Design) ∧ ∀ x ∈ numbers ({} : Design), ReadNearest x := by
  decide +kernel

/-- A design of finite doubles does not always come back: the difference of 1.1 and 1 is written
as `0.10000000000000009` and read as the double below it. -/
theorem Design.exists_read?_pretty_ne :
    ∃ d : Design, AllFinite d ∧ read? d.pretty ≠ some d := by
  refine ⟨{ background := { width := 1.1 - 1 } }, by decide +kernel, ?_⟩
  rw [read?_pretty_eq, Ne, mapNumbers?_eq_self_iff]
  decide +kernel

end WidgetSkin
