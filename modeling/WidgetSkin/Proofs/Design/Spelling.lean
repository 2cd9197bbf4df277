import WidgetSkin.Proofs.Decimal.Range
import WidgetSkin.Proofs.Design.RoundTrip
import WidgetSkin.Proofs.Json.Format

/-!
# Spellings of a design

A design need not be spelled the way it is saved. The members of every record may stand in any
order and among others, and a member may be left out if it holds the default of its field: what is
read is the same. A text in which a record has a field twice, or is without one that has no
default, is refused.

## Main definitions

* `format` for every part of a design.

## Main statements

* `Design.readBy_format` — designs are read by their format.
* `Design.respells_self` — the way a design is saved is one of its spellings.
* `Design.read?_spelling` — what is read from the spellings of a design.
-/

namespace WidgetSkin

open Json (Value Format Field)
open HasNumbers

/-! ## Fields -/

section Fields

variable {α : Type} {name : String} {format : Format} {read : Value → Option α}

theorem readBy_needed (h : format.ReadBy read) :
    (Field.needed name format).ReadBy (required · read) where
  respelled := by
    rintro w v (hvalue | hdefault | hdefault)
    · exact h.respelled hvalue
    · cases hdefault
    · cases hdefault
  flawed := by
    rintro v (hmissing | hvalue)
    · rfl
    · exact h.flawed hvalue

/-- A field may be left out if its default is read from where it is written. -/
theorem readBy_defaulted {written : Value} {default : α} (h : format.ReadBy read)
    (hdefault : read written = some default) :
    (Field.defaulted name written format).ReadBy (optional · default read) where
  respelled := by
    rintro w v (hvalue | hwritten | -)
    · exact h.respelled hvalue
    · obtain rfl := Option.some.inj hwritten
      exact hdefault.symm
    · rfl
  flawed := by
    rintro v (hmissing | hvalue)
    · cases hmissing
    · exact h.flawed hvalue

theorem readBy_number {x : Float} (h : reread? x = some x) :
    (Field.defaulted name (jsonNumber x) .plain).ReadBy (optional · x numberOf?) :=
  readBy_defaulted .plain h

theorem readBy_string (s : String) :
    (Field.defaulted name (.ofString s) .plain).ReadBy (optional · s Value.string?) :=
  readBy_defaulted .plain rfl

theorem readBy_bool (b : Bool) :
    (Field.defaulted name (.bool b) .plain).ReadBy (optional · b Value.bool?) :=
  readBy_defaulted .plain rfl

end Fields

/-- The doubles among the defaults are read from their numerals. -/
theorem reread?_defaults :
    reread? 0 = some 0 ∧ reread? 90 = some 90 ∧
      (∀ x ∈ numbers Scale.unit, reread? x = some x) ∧
      (∀ x ∈ numbers ({} : Background), reread? x = some x) ∧
      ∀ x ∈ numbers ({} : Settings), reread? x = some x := by
  decide +kernel

/-! ## Formats of geometry -/

/-- The format of points. -/
def Point.format : Format :=
  .record [.needed "x" .plain, .needed "y" .plain]

/-- The format of sizes. -/
def Size.format : Format :=
  .record [.needed "width" .plain, .needed "height" .plain]

/-- The format of scales. -/
def Scale.format : Format :=
  .record [.needed "x" .plain, .needed "y" .plain]

/-- The format of geometries. -/
def Geometry.format : Format :=
  .record [.needed "position" Point.format, .needed "size" Size.format,
    .defaulted "scale" Scale.unit.toJson Scale.format,
    .defaulted "angle_deg" (jsonNumber 0) .plain]

/-! ## Formats of contents -/

/-- The format of fills. -/
def Fill.format : Format :=
  .record [.needed "color" .plain, .defaulted "opacity" (jsonNumber 1) .plain]

/-- The format of text contents. -/
def TextContent.format : Format :=
  .record [.needed "text" .plain, .needed "font_name" .plain, .needed "font_size" .plain,
    .needed "fill" Fill.format]

/-- The format of image contents. -/
def imageFormat : Format :=
  .record [.needed "source" .plain]

/-- The format of needles. -/
def Needle.format : Format :=
  .record [.needed "source" .plain, .defaulted "offset_x" (jsonNumber 0) .plain,
    .defaulted "offset_y" (jsonNumber 0) .plain, .defaulted "start_angle" (jsonNumber 0) .plain,
    .defaulted "rotation_angle" (jsonNumber 90) .plain]

/-- The format of bar contents. -/
def BarContent.format : Format :=
  .record [.needed "background" Fill.format, .needed "foreground" Fill.format]

/-- The format of shape contents. -/
def ShapeContent.format : Format :=
  .record [.needed "shape" .plain, .needed "fill" Fill.format]

/-- The format of the contents of a kind. -/
def LayerKind.contentFormat : LayerKind → Format
  | .text => TextContent.format
  | .image => imageFormat
  | .rotator => Needle.format
  | .bar => BarContent.format
  | .shape => ShapeContent.format

/-- The format of contents. -/
def Payload.format : Format :=
  .choice LayerKind.label LayerKind.contentFormat

/-! ## Formats of designs -/

/-- The format of layers. The measure is not written at all if there is none. -/
def LayerSnapshot.format : Format :=
  .record [.defaulted "id" (jsonNat 0) .plain, .needed "name" .plain,
    .defaulted "measure" .null .plain, .needed "payload" Payload.format,
    .needed "geometry" Geometry.format, .defaulted "visible" (.bool true) .plain,
    .defaulted "locked" (.bool false) .plain]

/-- The format of backgrounds. -/
def Background.format : Format :=
  .record [.needed "position" Point.format, .needed "width" .plain, .needed "height" .plain,
    .defaulted "backdrop_color" (.ofString "#FFFFFF") .plain]

/-- The format of metadata. -/
def Metadata.format : Format :=
  .record [.defaulted "name" (.ofString "") .plain, .defaulted "author" (.ofString "") .plain,
    .defaulted "version" (.ofString "") .plain, .defaulted "description" (.ofString "") .plain]

/-- The format of settings. -/
def Settings.format : Format :=
  .record [.defaulted "update_ms" (jsonNat 1000) .plain,
    .defaulted "font_scale_correction" (jsonNumber 1.33) .plain,
    .defaulted "scroll_increment" (jsonNumber 0.05) .plain,
    .defaulted "min_scale" (jsonNumber 0.2) .plain,
    .defaulted "default_skin_name" (.ofString "rmEditorSkin") .plain,
    .defaulted "skin_file_name" (.ofString "skin.ini") .plain]

/-- The format of designs. -/
def Design.format : Format :=
  .record [.defaulted "metadata" ({} : Metadata).toJson Metadata.format,
    .defaulted "background" ({} : Background).toJson Background.format,
    .defaulted "layers" (.array []) (.list LayerSnapshot.format),
    .defaulted "allow_scroll_resize" (.bool false) .plain,
    .defaulted "settings" ({} : Settings).toJson Settings.format]

/-! ## Designs are read by their format -/

section ReadBy

theorem Point.readBy_format : format.ReadBy ofJson? := by
  refine .record (by decide) (fun _ => rfl) ?_
  exact .field (readBy_needed .plain) fun _ => .field (readBy_needed .plain) fun _ => .done _

theorem Size.readBy_format : format.ReadBy ofJson? := by
  refine .record (by decide) (fun _ => rfl) ?_
  exact .field (readBy_needed .plain) fun _ => .field (readBy_needed .plain) fun _ => .done _

theorem Scale.readBy_format : format.ReadBy ofJson? := by
  refine .record (by decide) (fun _ => rfl) ?_
  exact .field (readBy_needed .plain) fun _ => .field (readBy_needed .plain) fun _ => .done _

theorem Geometry.readBy_format : format.ReadBy ofJson? := by
  obtain ⟨hzero, -, hunit, -, -⟩ := reread?_defaults
  have hscale : Scale.ofJson? Scale.unit.toJson = some Scale.unit := by
    rw [Scale.ofJson?_toJson, mapNumbers?_eq_self_iff]
    exact hunit
  refine .record (by decide) (fun _ => rfl) ?_
  refine .field (readBy_needed Point.readBy_format) fun _ => ?_
  refine .field (readBy_needed Size.readBy_format) fun _ => ?_
  refine .field (readBy_defaulted Scale.readBy_format hscale) fun _ => ?_
  exact .field (readBy_number hzero) fun _ => .done _

theorem Fill.readBy_format : format.ReadBy ofJson? := by
  obtain ⟨-, -, hunit, -, -⟩ := reread?_defaults
  refine .record (by decide) (fun _ => rfl) ?_
  refine .field (readBy_needed .plain) fun _ => ?_
  exact .field (readBy_number (hunit 1 (.head _))) fun _ => .done _

theorem TextContent.readBy_format : format.ReadBy ofJson? := by
  refine .record (by decide) (fun _ => rfl) ?_
  refine .field (readBy_needed .plain) fun _ => .field (readBy_needed .plain) fun _ => ?_
  refine .field (readBy_needed .plain) fun _ => ?_
  exact .field (readBy_needed Fill.readBy_format) fun _ => .done _

theorem readBy_imageFormat : imageFormat.ReadBy imageSourceOf? :=
  .record (by decide) (fun _ => rfl) (.last (readBy_needed .plain))

theorem Needle.readBy_format : format.ReadBy ofJson? := by
  obtain ⟨hzero, hninety, -, -, -⟩ := reread?_defaults
  refine .record (by decide) (fun _ => rfl) ?_
  refine .field (readBy_needed .plain) fun _ => .field (readBy_number hzero) fun _ => ?_
  refine .field (readBy_number hzero) fun _ => .field (readBy_number hzero) fun _ => ?_
  exact .field (readBy_number hninety) fun _ => .done _

theorem BarContent.readBy_format : format.ReadBy ofJson? := by
  refine .record (by decide) (fun _ => rfl) ?_
  refine .field (readBy_needed Fill.readBy_format) fun _ => ?_
  exact .field (readBy_needed Fill.readBy_format) fun _ => .done _

theorem ShapeContent.readBy_format : format.ReadBy ofJson? := by
  refine .record (by decide) (fun _ => rfl) ?_
  refine .field (readBy_needed .plain) fun _ => ?_
  exact .field (readBy_needed Fill.readBy_format) fun _ => .done _

theorem Payload.readBy_format : format.ReadBy ofJson? := by
  refine .choice ofJson?_ofMembers fun k => ?_
  cases k with
  | text => exact TextContent.readBy_format.map _
  | image => exact readBy_imageFormat.map _
  | rotator => exact Needle.readBy_format.map _
  | bar => exact BarContent.readBy_format.map _
  | shape => exact ShapeContent.readBy_format.map _

theorem LayerSnapshot.readBy_format : format.ReadBy ofJson? := by
  have hid : (jsonNat 0).natBelow? UInt64.size = some 0 := natBelow?_jsonNat (by decide)
  have hmeasure : textOrNull? .null = some none := rfl
  refine .record (by decide) (fun _ => rfl) ?_
  refine .field (readBy_defaulted .plain hid) fun _ => ?_
  refine .field (readBy_needed .plain) fun _ => ?_
  refine .field (readBy_defaulted .plain hmeasure) fun _ => ?_
  refine .field (readBy_needed Payload.readBy_format) fun _ => ?_
  refine .field (readBy_needed Geometry.readBy_format) fun _ => ?_
  exact .field (readBy_bool true) fun _ => .field (readBy_bool false) fun _ => .done _

theorem Background.readBy_format : format.ReadBy ofJson? := by
  refine .record (by decide) (fun _ => rfl) ?_
  refine .field (readBy_needed Point.readBy_format) fun _ => ?_
  refine .field (readBy_needed .plain) fun _ => .field (readBy_needed .plain) fun _ => ?_
  exact .field (readBy_string _) fun _ => .done _

theorem Metadata.readBy_format : format.ReadBy ofJson? := by
  refine .record (by decide) (fun _ => rfl) ?_
  refine .field (readBy_string _) fun _ => .field (readBy_string _) fun _ => ?_
  exact .field (readBy_string _) fun _ => .field (readBy_string _) fun _ => .done _

theorem Settings.readBy_format : format.ReadBy ofJson? := by
  obtain ⟨-, -, -, -, hnumbers⟩ := reread?_defaults
  have hinterval : (jsonNat 1000).natBelow? UInt32.size = some 1000 :=
    natBelow?_jsonNat (by decide)
  refine .record (by decide) (fun _ => rfl) ?_
  refine .field (readBy_defaulted .plain hinterval) fun _ => ?_
  refine .field (readBy_number (hnumbers 1.33 (.head _))) fun _ => ?_
  refine .field (readBy_number (hnumbers 0.05 (.tail _ (.head _)))) fun _ => ?_
  refine .field (readBy_number (hnumbers 0.2 (.tail _ (.tail _ (.head _))))) fun _ => ?_
  exact .field (readBy_string _) fun _ => .field (readBy_string _) fun _ => .done _

/-- Designs are read by their format. -/
theorem Design.readBy_format : format.ReadBy ofJson? := by
  obtain ⟨-, -, -, hbackgroundNumbers, hsettingsNumbers⟩ := reread?_defaults
  have hmetadata : Metadata.ofJson? ({} : Metadata).toJson = some {} := by
    rw [Metadata.ofJson?_toJson]
    rfl
  have hbackground : Background.ofJson? ({} : Background).toJson = some {} := by
    rw [Background.ofJson?_toJson, mapNumbers?_eq_self_iff]
    exact hbackgroundNumbers
  have hsettings : Settings.ofJson? ({} : Settings).toJson = some {} := by
    rw [Settings.ofJson?_toJson, mapNumbers?_eq_self_iff]
    exact hsettingsNumbers
  refine .record (by decide) (fun _ => rfl) ?_
  refine .field (readBy_defaulted Metadata.readBy_format hmetadata) fun _ => ?_
  refine .field (readBy_defaulted Background.readBy_format hbackground) fun _ => ?_
  refine .field (readBy_defaulted (.list LayerSnapshot.readBy_format) rfl) fun _ => ?_
  refine .field (readBy_bool false) fun _ => ?_
  exact .field (readBy_defaulted Settings.readBy_format hsettings) fun _ => .done _

end ReadBy

/-! ## The way a design is saved -/

section Self

theorem Point.respells_self (p : Point) : format.Respells p.toJson p.toJson :=
  Format.record_respells_self (.kept rfl (.kept rfl .nil))

theorem Size.respells_self (s : Size) : format.Respells s.toJson s.toJson :=
  Format.record_respells_self (.kept rfl (.kept rfl .nil))

theorem Scale.respells_self (s : Scale) : format.Respells s.toJson s.toJson :=
  Format.record_respells_self (.kept rfl (.kept rfl .nil))

theorem Geometry.respells_self (g : Geometry) : format.Respells g.toJson g.toJson :=
  Format.record_respells_self <| .kept g.position.respells_self <| .kept g.size.respells_self <|
    .kept g.scale.respells_self <| .kept rfl .nil

theorem Fill.respells_self (f : Fill) : format.Respells f.toJson f.toJson :=
  Format.record_respells_self (.kept rfl (.kept rfl .nil))

theorem Payload.respells_self (p : Payload) : format.Respells p.toJson p.toJson := by
  refine ⟨p.kind, _, _, rfl, rfl, ?_⟩
  cases p with
  | text c =>
    exact Format.record_respells_self <| .kept rfl <| .kept rfl <| .kept rfl <|
      .kept c.fill.respells_self .nil
  | image source => exact Format.record_respells_self (.kept rfl .nil)
  | rotator n =>
    exact Format.record_respells_self <| .kept rfl <| .kept rfl <| .kept rfl <| .kept rfl <|
      .kept rfl .nil
  | bar c =>
    exact Format.record_respells_self <| .kept c.background.respells_self <|
      .kept c.foreground.respells_self .nil
  | shape c =>
    exact Format.record_respells_self <| .kept rfl <| .kept c.fill.respells_self .nil

theorem LayerSnapshot.respells_self (l : LayerSnapshot) : format.Respells l.toJson l.toJson := by
  obtain ⟨id, name, measure, payload, geometry, visible, locked⟩ := l
  cases measure with
  | none =>
    exact Format.record_respells_self <| .kept rfl <| .kept rfl <| .unwritten rfl <|
      .kept payload.respells_self <| .kept geometry.respells_self <| .kept rfl <| .kept rfl .nil
  | some m =>
    exact Format.record_respells_self <| .kept rfl <| .kept rfl <| .kept rfl <|
      .kept payload.respells_self <| .kept geometry.respells_self <| .kept rfl <| .kept rfl .nil

theorem Background.respells_self (b : Background) : format.Respells b.toJson b.toJson :=
  Format.record_respells_self <| .kept b.position.respells_self <| .kept rfl <| .kept rfl <|
    .kept rfl .nil

theorem Metadata.respells_self (m : Metadata) : format.Respells m.toJson m.toJson :=
  Format.record_respells_self <| .kept rfl <| .kept rfl <| .kept rfl <| .kept rfl .nil

theorem Settings.respells_self (s : Settings) : format.Respells s.toJson s.toJson :=
  Format.record_respells_self <| .kept rfl <| .kept rfl <| .kept rfl <| .kept rfl <|
    .kept rfl <| .kept rfl .nil

/-- The way a design is saved is one of its spellings. -/
theorem Design.respells_self (d : Design) : format.Respells d.toJson d.toJson := by
  have hlayers : (Format.list LayerSnapshot.format).Respells
      (.array (d.layers.map LayerSnapshot.toJson)) (.array (d.layers.map LayerSnapshot.toJson)) :=
    ⟨_, _, rfl, rfl, List.forall₂_same.2 <|
      List.forall_mem_map.2 fun l _ => l.respells_self⟩
  exact Format.record_respells_self <| .kept d.metadata.respells_self <|
    .kept d.background.respells_self <| .kept hlayers <| .kept rfl <|
      .kept d.settings.respells_self .nil

end Self

/-! ## What is read from the spellings of a design -/

theorem reread?_eq_none_iff {x : Float} : reread? x = none ↔ x.isFinite = false := by
  refine ⟨fun h => Bool.eq_false_iff.2 fun hfinite => ?_, reread?_eq_none⟩
  rw [reread?, jsonNumber, if_pos hfinite] at h
  exact Decimal.Style.approximate?_numeral_ne_none hfinite h

namespace Design

theorem read?_of_respells {d : Design} {text : String} {v : Value}
    (htext : Json.parse? (Text.symbols text) = some v) (h : format.Respells d.toJson v) :
    read? text = mapNumbers? reread? d := by
  rw [read?, ofSymbols?, htext, Option.bind_some, readBy_format.respelled h, ofJson?_toJson]

/-- A design is read from each of its spellings, with its doubles reread: it is refused exactly if
one of them is not finite, and comes back exactly if all are finite and their numerals are read as
the nearest doubles. A text is refused if one of its records has a field twice or is without one
that has no default. -/
theorem read?_spelling (d : Design) :
    (∀ text v, Json.parse? (Text.symbols text) = some v → format.Respells d.toJson v →
      read? text = mapNumbers? reread? d ∧ (read? text = none ↔ ¬ AllFinite d) ∧
        (read? text = some d ↔ AllFinite d ∧ ∀ x ∈ numbers d, ReadNearest x)) ∧
      ∀ text v, Json.parse? (Text.symbols text) = some v → format.Flawed v →
        read? text = none := by
  constructor
  · intro text v htext hrespells
    rw [read?_of_respells htext hrespells]
    refine ⟨rfl, ?_, ?_⟩
    · rw [mapNumbers?_eq_none_iff]
      simp only [reread?_eq_none_iff, AllFinite, not_forall, Bool.not_eq_true, exists_prop]
    · rw [mapNumbers?_eq_self_iff, AllFinite, ← forall₂_and]
      simp only [reread?_eq_self_iff]
  · intro text v htext hflawed
    rw [read?, ofSymbols?, htext, Option.bind_some, readBy_format.flawed hflawed]

/-- A design that has nothing but a background, with the members of the background the other way
round, without the backdrop, and with a note. -/
def sparseJson (b : Background) : Value :=
  .ofMembers [("note", .array [.null]), ("background", .ofMembers [("height", jsonNumber b.height),
    ("width", jsonNumber b.width), ("position", b.position.toJson)])]

theorem textual_sparseJson (b : Background) : (sparseJson b).Textual := by
  have hnote : (Value.array [.null]).Textual := .array (by simp [Value.Textual.null])
  have hbackground : (Value.ofMembers [("height", jsonNumber b.height),
      ("width", jsonNumber b.width), ("position", b.position.toJson)]).Textual :=
    .object (by simp [textual_jsonNumber, Point.textual_toJson])
  exact .object (by simp [hnote, hbackground])

theorem respells_sparseJson {b : Background} (h : b.backdropColor = "#FFFFFF") :
    format.Respells ({ background := b } : Design).toJson (sparseJson b) := by
  have hbackground : Background.format.Respells b.toJson (.ofMembers
      [("height", jsonNumber b.height), ("width", jsonNumber b.width),
        ("position", b.position.toJson)]) := by
    refine ⟨_, [("position", b.position.toJson), ("width", jsonNumber b.width),
      ("height", jsonNumber b.height)], [], _, rfl, rfl, ?_, ?_, by simp⟩
    · exact .kept b.position.respells_self <| .kept rfl <| .kept rfl <|
        .leftOut (congrArg (some <| Value.ofString ·) h.symm) .nil
    · exact List.reverse_perm [("position", _), ("width", _), ("height", _)]
  refine ⟨_, [("background", _)], [("note", .array [.null])], _, rfl, rfl, ?_, .swap _ _ _,
    by decide⟩
  exact .leftOut rfl <| .kept hbackground <| .leftOut rfl <| .leftOut rfl <| .leftOut rfl .nil

theorem read?_spelling_sparse :
    read? (.ofList ((sparseJson { width := 250 }).pretty 0)) =
        some { background := { width := 250 } } ∧
      read? (.ofList ((Value.ofMembers [("layers", .array []), ("layers", .array [])]).pretty 0)) =
        none := by
  obtain ⟨hspelled, hflawed⟩ := read?_spelling { background := { width := 250 } }
  have htwice : (Value.ofMembers [("layers", .array []), ("layers", .array [])]).Textual :=
    .object (by simp [Value.Textual.array])
  obtain ⟨-, -, hself⟩ := hspelled _ _ (Json.parse?_symbols_pretty (textual_sparseJson _) 0)
    (respells_sparseJson rfl)
  refine ⟨hself.2 (by decide +kernel), hflawed _ _ (Json.parse?_symbols_pretty htwice 0) ?_⟩
  exact .repeated (f := .defaulted "layers" (.array []) (.list LayerSnapshot.format)) (by simp)
    (by decide)

/-- A design of finite doubles does not come back from every spelling of it: the difference of 1.1
and 1 is written as `0.10000000000000009` and read as the double below it. -/
theorem exists_respelled_read?_ne :
    ∃ (d : Design) (text : String) (v : Value), AllFinite d ∧
      Json.parse? (Text.symbols text) = some v ∧ format.Respells d.toJson v ∧
        read? text ≠ some d := by
  have htext := Json.parse?_symbols_pretty (textual_sparseJson { width := 1.1 - 1 }) 0
  have hrespells := respells_sparseJson (b := { width := 1.1 - 1 }) rfl
  refine ⟨{ background := { width := 1.1 - 1 } }, _, _, by decide +kernel, htext, hrespells, ?_⟩
  rw [read?_of_respells htext hrespells, Ne, mapNumbers?_eq_self_iff]
  decide +kernel

end Design

end WidgetSkin
