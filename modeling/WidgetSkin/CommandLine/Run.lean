import WidgetSkin.CommandLine.Help
import WidgetSkin.Design.Reader
import WidgetSkin.Skin.Export

/-!
# Running commands

A command is a function of its arguments and the files; what it prints and the files that it
leaves are its result.

## Main definitions

* `CommandResult` — exit code, output and files.
* `run` — what arguments lead to.
-/

namespace WidgetSkin.CommandLine

/-- What a command leads to. -/
structure CommandResult where
  code : UInt32 := 0
  /-- The text on standard output. -/
  output : String := ""
  /-- The lines on standard error. -/
  notes : List String := []
  files : FileTree

/-- The exit code after a failure of the program. -/
def failureCode : UInt32 := 1

/-- The exit code after wrong arguments. -/
def usageCode : UInt32 := 2

/-- The note that reports a failure. -/
def errorNote (message : String) : String :=
  "Error: " ++ message

/-- The notes about a skin that was written. -/
def exportNotes (report : ExportReport) : List String :=
  (report.skippedLayers.map fun name => "skipped layer " ++ name ++ ": no usable measure") ++
    (report.assets.fontsSkipped.map fun font =>
      "font " ++ font ++ " not found in font directory") ++
    ["wrote " ++ report.skinFile ++ " (" ++ toString report.assets.fontsCopied.length ++
      " fonts, " ++ toString report.assets.imagesCopied.length ++ " images)"]

/-- Write a skin, if a directory for it is given, behind what was printed before. -/
def writeSkin (request : CompileRequest) (design : Design) (options : SkinOptions)
    (fonts : FontCache) (output : String) (files : FileTree) : CommandResult :=
  match request.outDirectory with
  | none => { output, files }
  | some root =>
    let work := exportSkin root design.snapshot design.metadata options fonts
    match work.run.run files with
    | (.ok report, files) => { output, notes := exportNotes report, files }
    | (.error fault, files) =>
      { code := failureCode, output, notes := [errorNote fault.message], files }

/-- Compile a design. -/
def compileDesign (request : CompileRequest) (files : FileTree) : CommandResult :=
  match Design.load files request.design with
  | .error _ =>
    { code := failureCode, notes := [errorNote ("load design '" ++ request.design ++ "'")]
      files }
  | .ok design =>
    let fonts := request.fonts.elim {} (FontCache.ofDirectory files)
    let options := { design.options with
      allowScrollResize := design.options.allowScrollResize || request.scrollResize }
    if request.print then
      match compile design.snapshot design.metadata options fonts with
      | .ok compiled => writeSkin request design options fonts compiled.text files
      | .error fault => { code := failureCode, notes := [errorNote fault.message], files }
    else writeSkin request design options fonts "" files

/-- The line for an entry of the catalog. -/
def measureLine (entry : MeasureEntry) : String :=
  "\t".intercalate [entry.id, entry.kind.label, entry.category.label, entry.label,
    entry.preview] ++ "\n"

/-- The lines for the measures of one kind of layer, or of all. -/
def measureLines (kind : Option LayerKind) : String :=
  String.join ((kind.elim Catalog.entries Catalog.forKind).map measureLine)

/-- The lines for the fonts in a directory. -/
def fontLines (cache : FontCache) : String :=
  String.join (cache.entries.map fun e => e.displayName ++ "\t" ++ e.fileName ++ "\n")

/-- Do what the arguments ask for. -/
def perform (request : Request) (files : FileTree) : CommandResult :=
  match request with
  | .compile request => compileDesign request files
  | .measures kind => { output := measureLines kind, files }
  | .fonts directory => { output := fontLines (.ofDirectory files directory), files }

/-- What arguments lead to. -/
def run (arguments : List String) (files : FileTree) : CommandResult :=
  match Request.ofArguments arguments with
  | .ok request => perform request files
  | .error .version => { output := versionText, files }
  | .error (.help about) => { output := helpText about, files }
  | .error (.wrong fault) =>
    { code := usageCode, notes := ["error: " ++ fault.message], files }

end WidgetSkin.CommandLine
