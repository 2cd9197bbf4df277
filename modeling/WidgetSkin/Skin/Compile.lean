import WidgetSkin.Skin.Meter

/-!
# Compilation

A snapshot becomes the text of a skin file and the plan of the assets that the text refers to.
Data that would break the structure of the file are refused before anything is written.

## Main definitions

* `validate` — the rules that a snapshot and its metadata keep.
* `CompiledSkin` — the result.
* `compile` — the compilation; it depends on nothing but its arguments.
-/

namespace WidgetSkin

/-! ## Rules -/

/-- Refuse a condition with a broken rule. -/
def refuseIf (condition : Bool) (cause : Invalid) : Except Fault Unit :=
  if condition then .error (.invalid cause) else .ok ()

/-- The background has a size. -/
def checkBackground (b : Background) : Except Fault Unit :=
  refuseIf (!b.size.isFinite || b.width < 0 || b.height < 0) .backgroundNegative

/-- Every field of the metadata stands on one line. -/
def checkMetadata (m : Metadata) : Except Fault Unit :=
  m.fields.forM fun (field, value) =>
    refuseIf (!Text.isSingleLine value) (.multiLineMetadata field)

/-- The name of the skin is the name of a directory. -/
def checkSkinName (name : String) : Except Fault Unit :=
  refuseIf (!Path.isSingleName name) (.skinName name)

/-- Whether a layer name can stand in the brackets of a section. -/
def isSectionName (name : String) : Bool :=
  !name.isEmpty && !name.toList.any fun c => c == '[' || c == ']' || Text.isLineEnd c

/-- The name and the font of a layer fit on lines of a skin file. -/
def checkLayer (layer : LayerSnapshot) : Except Fault Unit := do
  refuseIf (!isSectionName layer.name) (.layerName layer.name)
  match layer.payload with
  | .text content =>
    refuseIf (!Text.isSingleLine content.fontName) (.multiLineFontName layer.name)
  | .image _ | .rotator _ | .bar _ | .shape _ => return ()

/-- Every layer keeps the rules, and no name comes twice; `seen` holds the names of layers
before. -/
def checkLayers (seen : List String) : List LayerSnapshot → Except Fault Unit
  | [] => .ok ()
  | layer :: layers => do
    checkLayer layer
    refuseIf (seen.contains layer.name) (.duplicateLayer layer.name)
    checkLayers (layer.name :: seen) layers

/-- The rules that a snapshot and its metadata keep. -/
def validate (snapshot : Snapshot) (metadata : Metadata) (settings : Settings) :
    Except Fault Unit := do
  checkBackground snapshot.background
  checkMetadata metadata
  checkSkinName (metadata.directoryName settings)
  checkLayers [] snapshot.layers

/-! ## The sections in front -/

/-- The section with the metadata. -/
def metadataSection (m : Metadata) : Section :=
  ⟨"Metadata", [("Name", m.name), ("Author", m.author), ("Version", m.version),
    ("Description", m.description)]⟩

/-- The action that sets the scale to a formula and keeps it. -/
def scaleAction (formula : String) : String :=
  "[!SetVariable Scale \"" ++ formula ++ "\"][!WriteKeyValue Variables Scale \"" ++ formula ++
    "\"][!Refresh]"

/-- The actions of the mouse wheel, if it changes the scale. -/
def scrollActions (options : SkinOptions) : List (String × String) :=
  if options.allowScrollResize then
    let least := Decimal.format options.settings.minScale
    [("MouseScrollUpAction", scaleAction "(#Scale#+#ScrollMouseIncrement#)"),
      ("MouseScrollDownAction", scaleAction ("(#Scale#-#ScrollMouseIncrement# < " ++ least ++
        " ? " ++ least ++ " : #Scale#-#ScrollMouseIncrement#)"))]
  else []

/-- The section with the directives for the engine. -/
def engineSection (b : Background) (options : SkinOptions) : Section :=
  ⟨"Rainmeter", [("Update", toString options.settings.updateMs.toNat),
    ("BackgroundMode", "2"),
    ("SolidColor", "0,0,0,1"),
    ("SkinWidth", scaled b.width),
    ("SkinHeight", scaled b.height),
    ("AccurateText", "1")] ++ scrollActions options⟩

/-- The section with the variables. -/
def variablesSection (s : Settings) : Section :=
  ⟨"Variables", [("Scale", "1.0"), ("ScrollMouseIncrement", Decimal.format s.scrollIncrement)]⟩

/-- The sections in front of all declarations. -/
def headerSections (b : Background) (metadata : Metadata) (options : SkinOptions) :
    List Section :=
  [metadataSection metadata, engineSection b options, variablesSection options.settings]

/-! ## Compilation -/

/-- The result of a compilation. -/
structure CompiledSkin where
  text : String
  assets : AssetPlan
  /-- The names of the layers that do not appear. -/
  skippedLayers : List String
deriving DecidableEq

/-- Declare everything that a layer needs, if it appears. -/
def Document.addLayer (context : MeterContext) (doc : Document) (layer : LayerSnapshot) :
    Except Fault Document := do
  match ← context.block layer with
  | some block => doc.addBlock block
  | none => return doc

/-- The document of the layers that appear. -/
def documentOf (background : Background) (metadata : Metadata) (options : SkinOptions)
    (assets : AssetPlan) (shown : List LayerSnapshot) : Except Fault Document :=
  let context : MeterContext := ⟨background.position, options.settings, assets⟩
  shown.foldlM (Document.addLayer context) { header := headerSections background metadata options }

/-- The skin file of a snapshot and the assets that it refers to. -/
def compile (snapshot : Snapshot) (metadata : Metadata) (options : SkinOptions)
    (fonts : FontCache) : Except Fault CompiledSkin := do
  validate snapshot metadata options.settings
  let shown := snapshot.layers.filter LayerSnapshot.isShown
  let skipped := snapshot.layers.filter fun layer => !layer.isShown
  let assets := AssetPlan.ofLayers fonts shown
  let doc ← documentOf snapshot.background metadata options assets shown
  return ⟨doc.render, assets, skipped.map LayerSnapshot.name⟩

end WidgetSkin
