import WidgetSkin.Measure.Recipe

/-!
# The catalog of measures

All measures in the order in which the property panel lists them, and the questions asked of
them.

## Main definitions

* `Catalog.entries` — the catalog.
* `Catalog.find?` — the entry with an identifier.
* `Catalog.preview?` — a sample of a measure's value.
* `Catalog.defaultFor?` — the measure of a new layer.
-/

namespace WidgetSkin.Catalog

/-- The identifier under which a text layer shows its own text. -/
def customText : String := "custom-text"

/-- The text that a text layer shows after it went back to its own text. -/
def customTextPreview : String := "Custom Text"

/-! ## Declarations -/

/-- The number of processor cores that the catalog lists. -/
def coreCount : Nat := 8

/-- The volume that every disk measure reads. -/
def drive : String × String := ("Drive", "C:")

/-- Disk measures are read at every fifth update. -/
def divider : String × String := ("UpdateDivider", "5")

/-- A single declaration, named like the layer's measure. -/
def single (type : MeasureType) (options : List (String × String)) : List Declaration :=
  [⟨"", type, options⟩]

/-- A clock value in a given format. -/
def clock (format : String) : List Declaration :=
  single .time [("Format", format)]

/-- The load of all cores. -/
def load : List Declaration :=
  single .cpu []

/-- The load of one core. -/
def coreLoad (n : Nat) : List Declaration :=
  single .cpu [("Processor", toString n)]

/-- A reading of the volume; `reading` says which. -/
def disk (reading : List (String × String)) : List Declaration :=
  single .diskSpace ([drive] ++ reading ++ [divider])

/-- The used share of the volume, from its used and its total space. -/
def diskShare : List Declaration :=
  [⟨"Total", .diskSpace, [drive, ("Total", "1"), divider]⟩,
    ⟨"Used", .diskSpace, [drive, ("InvertMeasure", "1"), divider]⟩,
    ⟨"", .formula, [("Formula", "\x7bmeasure\x7dUsed / \x7bmeasure\x7dTotal"), divider]⟩]

/-! ## Entries -/

/-- The measures of the time for texts. -/
def textTime : List MeasureEntry :=
  [("time-hour-minute-24", "Hour:Minute (24h)", "15:15", "%H:%M"),
    ("time-hour-minute-12", "Hour:Minute (12h)", "03:15 PM", "%I:%M %p"),
    ("time-hour-24", "Hour (24h)", "15", "%H"),
    ("time-hour-12", "Hour (12h)", "03", "%I"),
    ("time-minute", "Minute", "30", "%M"),
    ("time-second", "Second", "45", "%S"),
    ("time-am-pm", "AM/PM", "PM", "%p")].map fun (id, label, preview, format) =>
    ⟨id, .text, .time, label, preview, clock format, "%1", none⟩

/-- The measures of the date for texts. -/
def textDate : List MeasureEntry :=
  [("date-yyyy-mm-dd", "YYYY-MM-DD", "2025-01-01", "%F"),
    ("date-mm-dd-yy", "MM/DD/YY", "01-01-25", "%D"),
    ("date-month-number", "Month (number)", "01", "%m"),
    ("date-month-full", "Month (full name)", "January", "%B"),
    ("date-month-short", "Month (short name)", "Jan", "%b"),
    ("date-day-number", "Day (number)", "01", "%d"),
    ("date-day-full", "Day (full name)", "Monday", "%A"),
    ("date-day-short", "Day (short name)", "Mon", "%a"),
    ("date-year-short", "Year (short)", "25", "%g"),
    ("date-year-full", "Year (full)", "2025", "%G")].map fun (id, label, preview, format) =>
    ⟨id, .text, .date, label, preview, clock format, "%1", none⟩

/-- The load of the processor and of each core, with identifiers that begin with `before`. -/
def loads (kind : LayerKind) (before template : String) : List MeasureEntry :=
  ⟨before ++ "cpu-average", kind, .cpu, "Average CPU Usage", "69%", load, template, none⟩ ::
    (List.range coreCount).map fun i =>
      let n := toString (i + 1)
      ⟨before ++ "cpu-core-" ++ n, kind, .cpu, "Core " ++ n ++ " Usage",
        toString ((i + 1) * 10) ++ "%", coreLoad (i + 1), template, none⟩

/-- The measures of the volume for texts. -/
def textDisk : List MeasureEntry :=
  [⟨"disk-c-label", .text, .disk, "Disk C Label", "Windows",
      disk [("Label", "1")], "%1", none⟩,
    ⟨"disk-c-total-space", .text, .disk, "Disk C Total Space", "123456789 B",
      disk [("Total", "1")], "%1 B", none⟩,
    ⟨"disk-c-free-space", .text, .disk, "Disk C Free Space", "123456789 B",
      disk [], "%1 B", none⟩,
    ⟨"disk-c-used-space", .text, .disk, "Disk C Used Space", "123456789 B",
      disk [("InvertMeasure", "1")], "%1 B", none⟩]

/-- The measures of the time for rotators, with the seconds of one turn. -/
def rotatorTime : List MeasureEntry :=
  [("rotator-time-second", "Seconds", "45", 60),
    ("rotator-time-minute", "Minutes", "30", 3600),
    ("rotator-time-hour", "Hours", "15", 43200)].map fun (id, label, preview, turn) =>
    ⟨id, .rotator, .time, label, preview, single .time [], "", some turn⟩

/-- The measure of the volume for rotators. -/
def rotatorDisk : List MeasureEntry :=
  [⟨"rotator-disk-c-usage", .rotator, .disk, "Disk C Usage", "42%", diskShare, "", none⟩]

/-- The measures for bars. -/
def bars : List MeasureEntry :=
  [⟨"bar-cpu", .bar, .cpu, "CPU", "69%", load, "", none⟩,
    ⟨"bar-disk", .bar, .disk, "Disk", "42%", disk [("InvertMeasure", "1")], "", none⟩]

/-- The catalog. -/
def entries : List MeasureEntry :=
  textTime ++ textDate ++ loads .text "" "%1%" ++ textDisk ++
    rotatorTime ++ loads .rotator "rotator-" "" ++ rotatorDisk ++ bars

/-! ## Questions -/

/-- The entry with an identifier. -/
def find? (id : String) : Option MeasureEntry :=
  entries.find? fun e => e.id == id

/-- Whether an identifier means something for some layer. -/
def isKnown (id : String) : Bool :=
  id == customText || (find? id).isSome

/-- The entries for a kind of layer. -/
def forKind (kind : LayerKind) : List MeasureEntry :=
  entries.filter fun e => e.kind = kind

/-- The groups of the entries for a kind of layer, in the order of their first entries. -/
def categoriesFor (kind : LayerKind) : List Category :=
  ((forKind kind).map MeasureEntry.category).eraseDups

/-- A sample of a measure's value. -/
def preview? (id : String) : Option String :=
  if id = customText then some customTextPreview
  else (find? id).map MeasureEntry.preview

/-- The measure of a new layer. -/
def defaultFor? : LayerKind → Option String
  | .text => some customText
  | .rotator => some "rotator-time-second"
  | .image | .bar | .shape => none

/-- The entry that a layer of a kind with a given measure shows: only an entry of its own
kind counts. -/
def resolve? (kind : LayerKind) (measure : Option String) : Option MeasureEntry :=
  (measure.bind find?).filter fun e => e.kind = kind

end WidgetSkin.Catalog
