import WidgetSkin.CommandLine.Arguments

/-!
# Help texts

## Main definitions

* `versionText` — the name and version of the program.
* `helpText` — the help on a command or on the program.
-/

namespace WidgetSkin.CommandLine

/-- The name of the program. -/
def programName : String := "skinforge"

/-- The name and version of the program. -/
def versionText : String := programName ++ " 0.1.0\n"

/-- A row of a help text: a term and its meaning, the terms `width` wide. -/
def helpRow (width : Nat) (row : String × String) : String :=
  "  " ++ row.1 ++ .ofList (List.replicate (width - row.1.length) ' ') ++ "  " ++ row.2 ++ "\n"

/-- A titled table of a help text. -/
def helpTable (title : String) (rows : List (String × String)) : String :=
  let width := (rows.map fun row => row.1.length).foldl max 0
  "\n" ++ title ++ ":\n" ++ String.join (rows.map (helpRow width))

/-- The row of the switch for more log output. -/
def verboseRow : String × String :=
  ("-v, --verbose...", "Increase log verbosity (-v info, -vv debug, -vvv trace)")

/-- The row of the switch for help. -/
def helpSwitchRow : String × String :=
  ("-h, --help", "Print help")

/-- What a command does. -/
def purpose : CommandName → String
  | .compile => "Compile a design JSON into a skin directory"
  | .measures => "List the measure catalog"
  | .fonts => "List the fonts found in a directory"
  | .help => "Print this message or the help of the given subcommand(s)"

/-- How a command is called. -/
def usage : CommandName → String
  | .compile => "compile [OPTIONS] --in <IN_PATH>"
  | .measures => "measures [OPTIONS]"
  | .fonts => "fonts [OPTIONS] --dir <DIR>"
  | .help => "help [COMMAND]..."

/-- The options of a command. -/
def optionRows : CommandName → List (String × String)
  | .compile =>
    [("    --in <IN_PATH>", "Input design JSON"),
      verboseRow,
      ("    --out-dir <OUT_DIR>", "Directory the skin folder is created in"),
      ("    --fonts <FONTS>", "Font directory used to resolve text layer fonts"),
      ("    --scroll-resize",
        "Emit mouse-wheel resize actions regardless of the design setting"),
      ("    --print", "Print the compiled skin text to stdout"),
      helpSwitchRow]
  | .measures =>
    [("    --kind <KIND>", "Only list measures for this layer kind " ++
        "[possible values: text, image, rotator, bar, shape]"),
      verboseRow, helpSwitchRow]
  | .fonts =>
    [("    --dir <DIR>", "Directory to scan for .ttf/.otf files"), verboseRow, helpSwitchRow]
  | .help => []

/-- The help on a command. -/
def commandHelp (command : CommandName) : String :=
  purpose command ++ "\n\nUsage: " ++ programName ++ " " ++ usage command ++ "\n" ++
    match command with
    | .help =>
      helpTable "Arguments" [("[COMMAND]...", "Print help for the subcommand(s)")]
    | _ => helpTable "Options" (optionRows command)

/-- The help on the program. -/
def programHelp : String :=
  "Usage: " ++ programName ++ " [OPTIONS] <COMMAND>\n" ++
    helpTable "Commands" (CommandName.all.map fun c => (c.label, purpose c)) ++
    helpTable "Options" [verboseRow, helpSwitchRow, ("-V, --version", "Print version")]

/-- The help on a command or on the program. -/
def helpText : Option CommandName → String
  | some command => commandHelp command
  | none => programHelp

end WidgetSkin.CommandLine
