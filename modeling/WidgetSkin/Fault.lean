import WidgetSkin.Layer.Kind
import WidgetSkin.FileTree.Basic
import WidgetSkin.Text.Escape

/-!
# Faults

Every way in which an operation of the library can fail, as a cause with the data that its
message needs.

## Main definitions

* `Invalid` — data that breaks a rule.
* `MeasureFault` — a measure that cannot be bound.
* `AssetFault` — a font or image that cannot be used.
* `Fault` — any of them, or a failure on the way to the disk.
* `Fault.message` — the text of a fault.
-/

namespace WidgetSkin

/-- A numeric setting of a layer that a rule restricts. -/
inductive Restricted where
  | fontSize
  | size
  | scale
deriving DecidableEq

/-- The word for a restricted setting. -/
def Restricted.label : Restricted → String
  | fontSize => "font size"
  | size => "size"
  | scale => "scale"

/-- A part of a skin file that has to stand on one line. -/
inductive LinePart where
  | measureName
  | meterName
  | optionKey
deriving DecidableEq

/-- The word for a part of a skin file. -/
def LinePart.label : LinePart → String
  | measureName => "measure name"
  | meterName => "meter name"
  | optionKey => "option key"

/-- Data that breaks a rule. -/
inductive Invalid where
  /-- A background of the editor has to have an area. -/
  | backgroundNotPositive
  /-- A background of a skin has to have a size. -/
  | backgroundNegative
  | multiLineMetadata (field : String)
  | skinName (name : String)
  | layerName (name : String)
  | multiLineFontName (layer : String)
  | duplicateLayer (name : String)
  | reorderLength (expected actual : Nat)
  | reorderRepeats (id : LayerId)
  | kindMismatch (id : LayerId) (actual expected : LayerKind)
  | noImageSource (id : LayerId) (kind : LayerKind)
  | noObject (id : LayerId)
  | notPositive (setting : Restricted)
  | angleNotFinite
  | propertyNotNumber (name value : String)
  | propertyNotFinite (name : String)
  | unknownProperty (name : String)
  | multiLine (part : LinePart) (text : String)
  | tooManyMeasures (meter : String) (count : Nat)
  | noPrimaryDeclaration (measure : String)
  /-- The picker of image files gave up for a reason of its own. -/
  | pickRefused (reason : String)
deriving DecidableEq

/-- The most measures that one meter can refer to. -/
def mostMeasures : Nat := 8

namespace Invalid

/-- A text between single quotation marks. -/
def quoted (s : String) : String :=
  "'" ++ s ++ "'"

/-- The text of a broken rule. -/
def message : Invalid → String
  | backgroundNotPositive => "background width/height must be finite and > 0"
  | backgroundNegative => "background width/height must be finite and >= 0"
  | multiLineMetadata field => "metadata " ++ field ++ " must be a single line"
  | skinName name => "skin name " ++ quoted name ++ " must be a single directory name"
  | layerName name => "layer name " ++ quoted name ++ " cannot be used as a section name"
  | multiLineFontName layer => "font name of layer " ++ quoted layer ++ " must be a single line"
  | duplicateLayer name => "duplicate layer name " ++ quoted name
  | reorderLength expected actual =>
    "reorder expects " ++ toString expected ++ " ids, got " ++ toString actual
  | reorderRepeats id => "reorder repeats " ++ id.text
  | kindMismatch id actual expected =>
    id.text ++ " is a " ++ actual.label ++ " layer, expected " ++ expected.label
  | noImageSource id kind =>
    id.text ++ " is a " ++ kind.label ++ " layer and has no image source"
  | noObject id => id.text ++ " has no object on the surface"
  | notPositive setting => setting.label ++ " must be finite and > 0"
  | angleNotFinite => "angle must be finite"
  | propertyNotNumber name value =>
    "property " ++ quoted name ++ " expects a number, got " ++ quoted value
  | propertyNotFinite name => "property " ++ quoted name ++ " must be finite"
  | unknownProperty name => "unknown rotator property " ++ quoted name
  | multiLine part text =>
    part.label ++ " " ++ quoted (Text.escape .message text) ++ " spans several lines"
  | tooManyMeasures meter count =>
    "meter " ++ quoted meter ++ " references " ++ toString count ++ " measures; at most " ++
      toString mostMeasures ++ " are allowed"
  | noPrimaryDeclaration measure =>
    "measure " ++ quoted measure ++ " has no primary declaration"
  | pickRefused reason => reason

end Invalid

/-- A measure that cannot be bound. -/
inductive MeasureFault where
  | unknown (id : String)
  | notApplicable (id : String) (kind : LayerKind)
deriving DecidableEq

/-- The text of a measure that cannot be bound. -/
def MeasureFault.message : MeasureFault → String
  | unknown id => "unknown measure " ++ Invalid.quoted id
  | notApplicable id kind =>
    "measure " ++ Invalid.quoted id ++ " does not apply to " ++ kind.label ++ " layers"

/-- A font or image that cannot be used. -/
inductive AssetFault where
  /-- The dimensions of the image cannot be read. -/
  | undecodable
  | copyFailed (target : String) (reason : SystemError)
  /-- The image is not among the planned assets. -/
  | notPlanned
deriving DecidableEq

/-- The text of a font or image that cannot be used. -/
def AssetFault.message : AssetFault → String
  | undecodable => "decode image dimensions"
  | copyFailed target reason => "copy to " ++ Invalid.quoted target ++ ": " ++ reason.message
  | notPlanned => "image missing from the asset plan"

/-- Why an operation of the library fails. -/
inductive Fault where
  | invalid (cause : Invalid)
  | unknownLayer (id : LayerId)
  | measure (cause : MeasureFault)
  | asset (path : String) (cause : AssetFault)
  /-- The directory of a skin is there already. -/
  | directoryExists (path : String)
  | directoryNotMade (path : String) (reason : SystemError)
  /-- A text or file holds no design. -/
  | unreadableDesign
  /-- The skin file cannot be written. -/
  | skinFileNotWritten (path : String)
deriving DecidableEq

/-- The text of a fault. -/
def Fault.message : Fault → String
  | invalid cause => "validation error: " ++ cause.message
  | unknownLayer id => "unknown layer " ++ id.text
  | measure cause => "measure error: " ++ cause.message
  | asset path cause => "asset error for " ++ Invalid.quoted path ++ ": " ++ cause.message
  | directoryExists path => "export error: " ++ Invalid.quoted path ++ " already exists"
  | directoryNotMade path reason =>
    "export error: create directory " ++ Invalid.quoted path ++ ": " ++ reason.message
  | unreadableDesign => "serialization error"
  | skinFileNotWritten path => "write skin file " ++ Invalid.quoted path

end WidgetSkin
