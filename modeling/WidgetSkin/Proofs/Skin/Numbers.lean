import WidgetSkin.Proofs.Color
import WidgetSkin.Proofs.Skin.Frame

/-!
# Numbers in a compiled skin

The keys of a skin file whose values hold numbers are known, and with each of them the form of the
value. Whatever doubles a snapshot and its settings hold, what is written there has this form with
plain literals in the places of numbers.

## Main definitions

* `IsLiteral`, `IsScaled` — numbers and lengths.
* `Slot` — what the values with numbers look like.
* `Slot.ofKey?` — the keys of these values.

## Main statements

* `MeterContext.Describes.fits` — the options of a meter.
* `compile_numbers` — the values with numbers in a compiled skin.
-/

namespace WidgetSkin

open Decimal

/-! ## Forms of values -/

/-- The text is a plain literal and no zero with a sign. -/
structure IsLiteral (t : String) : Prop where
  mem_literal : t.toList ∈ literal.matches'
  ne_minus_zero : t ≠ "-0"

theorem isLiteral_format (x : Float) : IsLiteral (format x) :=
  ⟨format_mem_literal x, format_ne_minus_zero x⟩

/-- The text is a literal times the scale of the skin. -/
def IsScaled (t : String) : Prop :=
  ∃ n, IsLiteral n ∧ t = "(" ++ n ++ " * #Scale#)"

theorem isScaled_scaled (x : Float) : IsScaled (scaled x) :=
  ⟨format x, isLiteral_format x, rfl⟩

/-- The text is an outline with lengths, or refers to a path. -/
inductive IsOutline : String → Prop
  | rectangle {width height : String} (hwidth : IsScaled width) (hheight : IsScaled height) :
    IsOutline ("Rectangle 0,0," ++ width ++ "," ++ height)
  | ellipse {x y : String} (hx : IsScaled x) (hy : IsScaled y) :
    IsOutline ("Ellipse " ++ ",".intercalate [x, y, x, y])
  | path : IsOutline "Path TrianglePath"

/-- The text is a turn, or nothing. -/
inductive IsTurn : String → Prop
  | nothing : IsTurn ""
  | turn {angle : String} (h : IsLiteral angle) : IsTurn (" | Rotate " ++ angle)

/-- A form of values that hold numbers. -/
inductive Slot where
  /-- A length that grows with the scale. -/
  | length
  | number
  /-- The action that keeps the scale from falling below the least one. -/
  | leastScale
  | shape
  | path
deriving DecidableEq

namespace Slot

/-- The keys under which lengths stand. -/
def lengthKeys : List String :=
  ["SkinWidth", "SkinHeight", "X", "Y", "W", "H", "FontSize", "OffsetX", "OffsetY"]

/-- The keys under which numbers stand. -/
def numberKeys : List String :=
  ["ScrollMouseIncrement", "Angle", "ImageRotate", "StartAngle", "RotationAngle"]

/-- The form of the values under a key, if they hold numbers. -/
def ofKey? (key : String) : Option Slot :=
  if key ∈ lengthKeys then some length
  else if key ∈ numberKeys then some number
  else if key = "MouseScrollDownAction" then some leastScale
  else if key = "Shape" then some shape
  else if key = "TrianglePath" then some path
  else none

/-- The value has the form, with literals in the places of numbers. -/
def Holds (value : String) : Slot → Prop
  | length => IsScaled value
  | number => IsLiteral value
  | leastScale => ∃ least, IsLiteral least ∧
    value = scaleAction ("(#Scale#-#ScrollMouseIncrement# < " ++ least ++ " ? " ++ least ++
      " : #Scale#-#ScrollMouseIncrement#)")
  | shape => ∃ outline red green blue alpha turn, IsOutline outline ∧ IsTurn turn ∧
    value = outline ++ " | Fill Color " ++ channelText red green blue alpha ++
      " | StrokeWidth 0" ++ turn
  | path => ∃ half width height, IsScaled half ∧ IsScaled width ∧ IsScaled height ∧
    value = half ++ ",0 | LineTo " ++ width ++ "," ++ height ++ " | LineTo 0," ++ height ++
      " | ClosePath 1"

end Slot

/-! ## Single lines -/

section SingleLine

open Text

variable {t : String}

theorem isLineEnd_eq_false_of_not_blank {c : Char} (h : isBlank c = false) :
    isLineEnd c = false := by
  rw [isLineEnd, Bool.or_eq_false_iff, beq_eq_false_iff_ne, beq_eq_false_iff_ne]
  refine ⟨?_, ?_⟩ <;> rintro rfl <;> exact absurd h (by decide)

theorem IsLiteral.isSingleLine (h : IsLiteral t) : isSingleLine t = true := by
  have hends : ∀ c ∈ t.toList, isLineEnd c = false := fun c hc =>
    isLineEnd_eq_false_of_not_blank (not_blank_of_mem_literal h.mem_literal c hc)
  simpa [Text.isSingleLine, List.any_eq_false] using hends

theorem IsScaled.isSingleLine (h : IsScaled t) : isSingleLine t = true := by
  obtain ⟨n, hn, rfl⟩ := h
  have hopen : Text.isSingleLine "(" = true := by decide
  have hclose : Text.isSingleLine " * #Scale#)" = true := by decide
  simp [hn.isSingleLine, hopen, hclose]

/-- Four texts with commas between them keep to one line if the texts do. -/
theorem isSingleLine_intercalate {a b c d : String} (ha : isSingleLine a = true)
    (hb : isSingleLine b = true) (hc : isSingleLine c = true) (hd : isSingleLine d = true) :
    isSingleLine (",".intercalate [a, b, c, d]) = true := by
  have hcomma : isSingleLine "," = true := by decide
  have hjoin : ",".intercalate [a, b, c, d] = a ++ "," ++ b ++ "," ++ c ++ "," ++ d := rfl
  simp [hjoin, ha, hb, hc, hd, hcomma]

theorem IsOutline.isSingleLine (h : IsOutline t) : isSingleLine t = true := by
  cases h with
  | rectangle hwidth hheight =>
    have hword : Text.isSingleLine "Rectangle 0,0," = true := by decide
    have hcomma : Text.isSingleLine "," = true := by decide
    simp [hword, hcomma, hwidth.isSingleLine, hheight.isSingleLine]
  | ellipse hx hy =>
    have hword : Text.isSingleLine "Ellipse " = true := by decide
    rw [isSingleLine_append, hword, isSingleLine_intercalate hx.isSingleLine hy.isSingleLine
      hx.isSingleLine hy.isSingleLine]
    rfl
  | path => decide

theorem IsTurn.isSingleLine (h : IsTurn t) : isSingleLine t = true := by
  cases h with
  | nothing => decide
  | turn h =>
    have hword : Text.isSingleLine " | Rotate " = true := by decide
    simp [hword, h.isSingleLine]

theorem isSingleLine_channelText (red green blue alpha : Fin 256) :
    isSingleLine (channelText red green blue alpha) = true :=
  isSingleLine_intercalate (isSingleLine_repr _) (isSingleLine_repr _) (isSingleLine_repr _)
    (isSingleLine_repr _)

theorem isSingleLine_scaleAction {formula : String} (h : isSingleLine formula = true) :
    isSingleLine (scaleAction formula) = true := by
  have hset : isSingleLine "[!SetVariable Scale \"" = true := by decide
  have hwrite : isSingleLine "\"][!WriteKeyValue Variables Scale \"" = true := by decide
  have hrefresh : isSingleLine "\"][!Refresh]" = true := by decide
  unfold scaleAction
  simp [h, hset, hwrite, hrefresh]

theorem Slot.Holds.isSingleLine {slot : Slot} (h : slot.Holds t) : isSingleLine t = true := by
  cases slot with
  | length => exact IsScaled.isSingleLine h
  | number => exact IsLiteral.isSingleLine h
  | leastScale =>
    obtain ⟨least, hleast, ht⟩ := h
    have hbelow : Text.isSingleLine "(#Scale#-#ScrollMouseIncrement# < " = true := by
      decide
    have hthen : Text.isSingleLine " ? " = true := by decide
    have helse : Text.isSingleLine " : #Scale#-#ScrollMouseIncrement#)" = true := by
      decide
    rw [ht]
    refine isSingleLine_scaleAction ?_
    simp only [isSingleLine_append, hleast.isSingleLine, hbelow, hthen, helse, Bool.and_self]
  | shape =>
    obtain ⟨outline, red, green, blue, alpha, turn, houtline, hturn, rfl⟩ := h
    have hfill : Text.isSingleLine " | Fill Color " = true := by decide
    have hstroke : Text.isSingleLine " | StrokeWidth 0" = true := by decide
    simp [houtline.isSingleLine, hturn.isSingleLine, isSingleLine_channelText, hfill, hstroke]
  | path =>
    obtain ⟨half, width, height, hhalf, hwidth, hheight, rfl⟩ := h
    have hline : Text.isSingleLine ",0 | LineTo " = true := by decide
    have hcomma : Text.isSingleLine "," = true := by decide
    have hback : Text.isSingleLine " | LineTo 0," = true := by decide
    have hclose : Text.isSingleLine " | ClosePath 1" = true := by decide
    simp only [isSingleLine_append, hhalf.isSingleLine, hwidth.isSingleLine, hheight.isSingleLine,
      hline, hcomma, hback, hclose, Bool.and_self]

end SingleLine

/-! ## Entries -/

/-- The value of an entry has the form that its key asks for. -/
def EntryFits (entry : String × String) : Prop :=
  ∀ slot, Slot.ofKey? entry.1 = some slot → slot.Holds entry.2

section Entries

variable {key value : String}

theorem entryFits_of_holds (slot : Slot) (hkey : Slot.ofKey? key = some slot)
    (h : slot.Holds value) : EntryFits (key, value) := by
  intro other hother
  rw [hkey] at hother
  cases hother
  exact h

theorem entryFits_of_eq_none (value : String) (hkey : Slot.ofKey? key = none := by decide) :
    EntryFits (key, value) := by
  intro slot hslot
  rw [hkey] at hslot
  cases hslot

theorem entryFits_scaled (x : Float) (hkey : Slot.ofKey? key = some .length := by decide) :
    EntryFits (key, scaled x) :=
  entryFits_of_holds _ hkey (isScaled_scaled x)

theorem entryFits_format (x : Float) (hkey : Slot.ofKey? key = some .number := by decide) :
    EntryFits (key, format x) :=
  entryFits_of_holds _ hkey (isLiteral_format x)

/-- A value that has its form is written as it is. -/
theorem EntryFits.encode (h : EntryFits (key, value)) :
    EntryFits (key, Text.LineBreak.encode value) := by
  intro slot hslot
  have hvalue : slot.Holds value := h slot hslot
  rwa [Text.LineBreak.encode_eq_self hvalue.isSingleLine]

end Entries

/-- The values of a section have the forms that their keys ask for. -/
def Section.Fits (s : Section) : Prop :=
  ∀ entry ∈ s.entries, EntryFits entry

theorem Section.Fits.encoded {s : Section} (h : s.Fits) : s.encoded.Fits := by
  intro entry hentry
  obtain ⟨entry, hmem, rfl⟩ := List.mem_map.1 hentry
  exact (h entry hmem).encode

/-- A section without numbers. -/
theorem Section.fits_of_keys {s : Section} (h : ∀ key ∈ s.frame.keys, Slot.ofKey? key = none) :
    s.Fits :=
  fun entry hentry => entryFits_of_eq_none entry.2 (h entry.1 (List.mem_map_of_mem hentry))

/-! ## The sections in front -/

theorem fits_headerSections (background : Background) (metadata : Metadata)
    (options : SkinOptions) : ∀ s ∈ headerSections background metadata options, s.Fits := by
  have hmetadata : (metadataSection metadata).Fits :=
    Section.fits_of_keys (by
      change ∀ key ∈ ["Name", "Author", "Version", "Description"], Slot.ofKey? key = none
      decide)
  have hscroll : ∀ entry ∈ scrollActions options, EntryFits entry := by
    unfold scrollActions
    split
    · refine List.forall_mem_cons.2 ⟨entryFits_of_eq_none _,
        List.forall_mem_singleton.2 (entryFits_of_holds .leastScale (by decide)
          ⟨_, isLiteral_format _, rfl⟩)⟩
    · exact List.forall_mem_nil _
  have hengine : (engineSection background options).Fits := by
    refine List.forall_mem_append.2 ⟨?_, hscroll⟩
    simp only [List.forall_mem_cons]
    exact ⟨entryFits_of_eq_none _, entryFits_of_eq_none _, entryFits_of_eq_none _,
      entryFits_scaled _, entryFits_scaled _, entryFits_of_eq_none _, List.forall_mem_nil _⟩
  have hvariables : (variablesSection options.settings).Fits := by
    refine List.forall_mem_cons.2 ⟨entryFits_of_eq_none _,
      List.forall_mem_singleton.2 (entryFits_format _)⟩
  exact List.forall_mem_cons.2 ⟨hmetadata, List.forall_mem_cons.2
    ⟨hengine, List.forall_mem_singleton.2 hvariables⟩⟩

/-! ## Layers -/

theorem isOutline_outlineText (outline : Outline) (size : Size) :
    IsOutline (MeterContext.outlineText outline size) := by
  cases outline with
  | rectangle => exact .rectangle (isScaled_scaled _) (isScaled_scaled _)
  | ellipse => exact .ellipse (isScaled_scaled _) (isScaled_scaled _)
  | triangle => exact .path

theorem isTurn_turnText (angle : Float) : IsTurn (MeterContext.turnText angle) := by
  unfold MeterContext.turnText
  split
  · exact .turn (isLiteral_format angle)
  · exact .nothing

namespace MeterContext

variable {c : MeterContext} {layer : LayerSnapshot} {options : List (String × String)}

theorem fits_shapeOptions (content : ShapeContent) :
    ∀ entry ∈ c.shapeOptions layer content, EntryFits entry := by
  have hshape : EntryFits ("Shape", outlineText content.outline layer.geometry.scaledSize ++
      " | Fill Color " ++ content.fill.encode ++ " | StrokeWidth 0" ++
      turnText layer.geometry.angle) := by
    obtain ⟨red, green, blue, alpha, hfill⟩ :=
      exists_encodeColor_eq content.fill.color content.fill.opacity
    refine entryFits_of_holds .shape (by decide) ⟨_, red, green, blue, alpha, _,
      isOutline_outlineText content.outline layer.geometry.scaledSize,
      isTurn_turnText layer.geometry.angle, ?_⟩
    rw [Fill.encode, hfill]
  refine List.forall_mem_append.2 ⟨?_, ?_⟩
  · exact List.forall_mem_cons.2 ⟨entryFits_scaled _,
      List.forall_mem_cons.2 ⟨entryFits_scaled _,
        List.forall_mem_singleton.2 hshape⟩⟩
  · split
    · exact List.forall_mem_singleton.2 (entryFits_of_holds .path (by decide)
        ⟨_, _, _, isScaled_scaled _, isScaled_scaled _, isScaled_scaled _, rfl⟩)
    · exact List.forall_mem_nil _

theorem fits_rotatorOptions (needle : Needle) (name : String) (remainder : Option Nat) :
    ∀ entry ∈ c.rotatorOptions layer needle name remainder, EntryFits entry := by
  refine List.forall_mem_append.2 ⟨?_, ?_⟩
  · simp only [List.forall_mem_cons]
    exact ⟨entryFits_of_eq_none _, entryFits_scaled _, entryFits_scaled _, entryFits_scaled _,
      entryFits_scaled _, entryFits_format _, entryFits_format _, entryFits_scaled _,
      entryFits_scaled _, List.forall_mem_nil _⟩
  · cases remainder with
    | none => exact List.forall_mem_nil _
    | some r => exact List.forall_mem_singleton.2 (entryFits_of_eq_none _)

/-- The options of a meter have the forms that their keys ask for. -/
theorem Describes.fits (h : c.Describes layer options) : ∀ entry ∈ options, EntryFits entry := by
  cases h with
  | text content shown hp =>
    simp only [textOptions, List.forall_mem_cons]
    exact ⟨entryFits_of_eq_none _, entryFits_scaled _, entryFits_of_eq_none _,
      entryFits_of_eq_none _, entryFits_scaled _, entryFits_scaled _, entryFits_format _,
      entryFits_of_eq_none _, entryFits_of_eq_none _, List.forall_mem_nil _⟩
  | image source name hp =>
    simp only [imageOptions, List.forall_mem_cons]
    exact ⟨entryFits_of_eq_none _, entryFits_scaled _, entryFits_scaled _, entryFits_scaled _,
      entryFits_scaled _, entryFits_format _, List.forall_mem_nil _⟩
  | rotator needle name entry hp hm => exact fits_rotatorOptions needle name _
  | bar content hp =>
    simp only [barOptions, List.forall_mem_cons]
    exact ⟨entryFits_scaled _, entryFits_scaled _, entryFits_scaled _, entryFits_scaled _,
      entryFits_of_eq_none _, entryFits_of_eq_none _, entryFits_of_eq_none _, List.forall_mem_nil _⟩
  | shape content hp => exact fits_shapeOptions content

/-- No measure of the catalog holds a number of the skin. -/
theorem fits_measures {d : MeasureDeclaration} (hd : d ∈ layer.declarations) :
    d.toSection.Fits := by
  have hentries : ∀ entry ∈ Catalog.entries, ∀ d ∈ entry.recipe.declarations,
      ∀ key ∈ "Measure" :: d.options.map Prod.fst, Slot.ofKey? key = none := by
    decide
  have hframe : d.toSection.frame ∈ layer.measureFrames := by
    rw [← layer.frame_declarations]
    exact List.mem_map_of_mem hd
  unfold LayerSnapshot.measureFrames at hframe
  cases hentry : layer.catalogMeasure? with
  | none => simp [hentry] at hframe
  | some entry =>
    rw [hentry] at hframe
    obtain ⟨declaration, hmem, heq⟩ := List.mem_map.1 hframe
    refine Section.fits_of_keys ?_
    rw [← heq]
    exact hentries entry (LayerSnapshot.catalogMeasure?_eq_some hentry).1 declaration hmem

/-- The sections of a layer have the forms that their keys ask for. -/
theorem fits_of_block {b : Block} (h : c.block layer = .ok (some b)) :
    (∀ d ∈ b.measures, d.toSection.Fits) ∧ b.meter.toSection.Fits := by
  obtain ⟨options, rfl, hoptions⟩ := exists_describes_of_block h
  refine ⟨fun d hd => fits_measures hd, ?_⟩
  have hreferences : ∀ entry ∈ (layer.blockWith options).meter.references, EntryFits entry := by
    unfold MeterDeclaration.references LayerSnapshot.blockWith LayerSnapshot.references
    split
    · exact List.forall_mem_singleton.2 (entryFits_of_eq_none _)
    · exact List.forall_mem_nil _
  exact List.forall_mem_cons.2 ⟨entryFits_of_eq_none _,
    List.forall_mem_append.2 ⟨hreferences, hoptions.fits⟩⟩

end MeterContext

/-! ## Compiled skins -/

theorem fits_documentOf {background : Background} {metadata : Metadata} {options : SkinOptions}
    {assets : AssetPlan} {shown : List LayerSnapshot} {doc : Document}
    (hshown : ∀ layer ∈ shown, layer.isShown = true)
    (h : documentOf background metadata options assets shown = .ok doc) :
    ∀ s ∈ doc.sections, s.Fits := by
  obtain ⟨blocks, hblocks, rfl⟩ := documentOf_eq_ok hshown h
  have hfits : ∀ b ∈ blocks, (∀ d ∈ b.measures, d.toSection.Fits) ∧ b.meter.toSection.Fits := by
    intro b hb
    obtain ⟨layer, -, hblock⟩ := exists_layer_of_mem_blocks hblocks hb
    exact MeterContext.fits_of_block hblock
  intro s hs
  simp only [Document.sections, List.mem_append, List.mem_map, List.mem_flatMap] at hs
  rcases hs with (hs | ⟨d, ⟨b, hb, hd⟩, rfl⟩) | ⟨_, ⟨b, hb, rfl⟩, rfl⟩
  · exact fits_headerSections background metadata options s hs
  · exact (hfits b hb).1 d hd
  · exact (hfits b hb).2

/-- Under every key of a compiled skin that holds numbers the value has the form of the key with
plain literals in the places of numbers, whatever doubles the snapshot and the settings hold. Every
number text is such a literal, and that of a finite double other than zero is read as the double. -/
theorem compile_numbers {snapshot : Snapshot} {metadata : Metadata} {options : SkinOptions}
    {fonts : FontCache} {skin : CompiledSkin}
    (h : compile snapshot metadata options fonts = .ok skin) :
    (Section.readAll skin.text).map Section.frame = skinFrames options snapshot.shown ∧
    (∀ s ∈ Section.readAll skin.text, ∀ entry ∈ s.entries, ∀ slot,
      Slot.ofKey? entry.1 = some slot → slot.Holds entry.2) ∧
    (∀ x : Float, IsLiteral (format x)) ∧
    ∀ x : Float, x.isFinite = true → (x == 0) = false → readFloat? (format x).toList = some x := by
  obtain ⟨doc, hdoc, htext, hframes, hsound⟩ := exists_document_of_compile h
  have hread : Section.readAll skin.text = doc.sections.map Section.encoded := by
    rw [Section.readAll, htext, Document.readLines_render fun s hs => (hsound s hs).readable]
  refine ⟨compile_frames h, fun s hs => ?_, isLiteral_format, fun x hfinite hzero => ?_⟩
  · rw [hread] at hs
    obtain ⟨s, hmem, rfl⟩ := List.mem_map.1 hs
    exact (fits_documentOf (fun _ => Snapshot.isShown_of_mem_shown) hdoc s hmem).encoded
  · exact readFloat?_format hfinite fun hmagnitude => by
      rw [(beq_zero_iff x).2 hmagnitude] at hzero
      cases hzero

/-- A turned shape without a position whose size overflows when it is scaled. -/
def boundlessShape : LayerSnapshot where
  name := "Sky"
  payload := .shape ⟨.ellipse, ⟨"#0F0", 0.5⟩⟩
  geometry := ⟨⟨0 / 0, -0.0⟩, ⟨1e308, 5e-324⟩, ⟨1e308, -1⟩, 1e-7⟩

/-- What is no number and what overflows is written as a literal too, and a text whose font size
is divided by zero. -/
theorem compile_numbers_boundlessShape :
    ∃ skin, compile ⟨{}, [boundlessShape, forgingText]⟩ {}
        { allowScrollResize := true, settings := { fontScaleCorrection := 0, minScale := 0 / 0 } }
        {} = .ok skin ∧
      (Section.readAll skin.text).map Section.name =
        ["Metadata", "Rainmeter", "Variables", "Sky", "Clock"] ∧
      ∀ s ∈ Section.readAll skin.text, ∀ entry ∈ s.entries, ∀ slot,
        Slot.ofKey? entry.1 = some slot → slot.Holds entry.2 := by
  have hok : (compile ⟨{}, [boundlessShape, forgingText]⟩ {}
      { allowScrollResize := true, settings := { fontScaleCorrection := 0, minScale := 0 / 0 } }
      {}).isOk = true := by
    decide
  obtain ⟨skin, hskin⟩ := exists_eq_ok_of_isOk hok
  obtain ⟨hframes, hslots, -, -⟩ := compile_numbers hskin
  refine ⟨skin, hskin, ?_, hslots⟩
  have hnames := congrArg (List.map Frame.name) hframes
  rw [List.map_map] at hnames
  exact hnames

end WidgetSkin
