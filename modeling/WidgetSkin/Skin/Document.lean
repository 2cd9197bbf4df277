import WidgetSkin.Fault
import WidgetSkin.Measure.Recipe
import WidgetSkin.Skin.Section

/-!
# Skin documents

The content of a skin file before it is written: fixed sections, then the declarations of
measures, then those of meters. Whatever is added stands on single lines, so that a document is
written as exactly the sections that it holds.

## Main definitions

* `MeasureDeclaration`, `MeterDeclaration` — what a document declares.
* `Document` — the sections in front and the declarations.
* `Document.addMeasure`, `Document.addMeter` — declare more, if the rules allow it.
* `Document.render` — the text.
* `DocumentOp`, `Document.step` — the operations as data.
-/

namespace WidgetSkin

/-- A source of values. -/
structure MeasureDeclaration where
  name : String
  type : MeasureType
  options : List (String × String)
deriving DecidableEq

/-- The section of a source of values. -/
def MeasureDeclaration.toSection (d : MeasureDeclaration) : Section :=
  ⟨d.name, ("Measure", d.type.keyword) :: d.options⟩

/-- The types of visible elements. -/
inductive MeterType where
  | string
  | image
  | rotator
  | bar
  | shape
deriving DecidableEq

/-- The word for a type of meter in a skin file. -/
def MeterType.keyword : MeterType → String
  | string => "String"
  | image => "Image"
  | rotator => "Rotator"
  | bar => "Bar"
  | shape => "Shape"

/-- The type of meter that draws a kind of layer. -/
def MeterType.ofKind : LayerKind → MeterType
  | .text => string
  | .image => image
  | .rotator => rotator
  | .bar => bar
  | .shape => shape

/-- A visible element. -/
structure MeterDeclaration where
  name : String
  type : MeterType
  /-- The measures that the element shows. -/
  measures : List String
  options : List (String × String)
deriving DecidableEq

/-- The key of the measure at a place in the list of a meter's measures. -/
def measureKey (index : Nat) : String :=
  if index = 0 then "MeasureName" else "MeasureName" ++ toString (index + 1)

namespace MeterDeclaration

/-- The entries that refer to measures. -/
def references (d : MeterDeclaration) : List (String × String) :=
  d.measures.mapIdx fun i name => (measureKey i, name)

/-- The section of a visible element. -/
def toSection (d : MeterDeclaration) : Section :=
  ⟨d.name, ("Meter", d.type.keyword) :: (d.references ++ d.options)⟩

end MeterDeclaration

/-- The content of a skin file. -/
structure Document where
  header : List Section
  measures : List MeasureDeclaration := []
  meters : List MeterDeclaration := []
deriving DecidableEq

/-- Refuse the first of several texts that does not stand on one line. -/
def requireSingleLines (part : LinePart) (texts : List String) : Except Fault Unit :=
  match texts.find? fun s => !Text.isSingleLine s with
  | some s => .error (.invalid (.multiLine part s))
  | none => .ok ()

namespace Document

/-- Declare one more measure. -/
def addMeasure (doc : Document) (d : MeasureDeclaration) : Except Fault Document := do
  requireSingleLines .measureName [d.name]
  requireSingleLines .optionKey (d.options.map Prod.fst)
  return { doc with measures := doc.measures ++ [d] }

/-- Declare one more meter. -/
def addMeter (doc : Document) (d : MeterDeclaration) : Except Fault Document := do
  if mostMeasures < d.measures.length then
    throw (.invalid (.tooManyMeasures d.name d.measures.length))
  requireSingleLines .meterName [d.name]
  requireSingleLines .measureName d.measures
  requireSingleLines .optionKey (d.options.map Prod.fst)
  return { doc with meters := doc.meters ++ [d] }

/-- The sections of a document. -/
def sections (doc : Document) : List Section :=
  doc.header ++ doc.measures.map MeasureDeclaration.toSection ++
    doc.meters.map MeterDeclaration.toSection

/-- The text of a document. -/
def render (doc : Document) : String :=
  String.join (doc.sections.map Section.render)

end Document

/-! ## Operations as data -/

/-- An operation on a document. -/
inductive DocumentOp where
  | addMeasure (d : MeasureDeclaration)
  | addMeter (d : MeterDeclaration)

/-- What an operation leads to. -/
structure DocumentStep where
  result : Except Fault Unit
  document : Document

namespace Document

/-- The document with a declaration more, if the rules allow it. -/
def add (doc : Document) : DocumentOp → Except Fault Document
  | .addMeasure d => doc.addMeasure d
  | .addMeter d => doc.addMeter d

/-- Do an operation. A declaration that is refused leaves the document as it was. -/
def step (doc : Document) (op : DocumentOp) : DocumentStep :=
  match doc.add op with
  | .ok next => ⟨.ok (), next⟩
  | .error fault => ⟨.error fault, doc⟩

end Document

end WidgetSkin
