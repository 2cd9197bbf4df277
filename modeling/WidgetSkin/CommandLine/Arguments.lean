import WidgetSkin.Layer.Kind

/-!
# Command line arguments

Arguments are read from left to right; the first one that asks for help or the version, or that
is wrong, decides. A value follows its option as the next argument or behind an equals sign.

## Main definitions

* `UsageFault` — what can be wrong with arguments.
* `CommandSpec` — the options and switches of a command.
* `readArguments` — the values and switches of a command.
* `Request`, `Request.ofArguments` — what the arguments ask for.
-/

namespace WidgetSkin.CommandLine

/-- What can be wrong with arguments. -/
inductive UsageFault where
  | unexpected (argument : String)
  | noCommand
  | repeated (option : String)
  | noValue (option : String)
  | badValue (option value : String)
  | missing (option : String)
deriving DecidableEq

/-- The text of what is wrong. -/
def UsageFault.message : UsageFault → String
  | unexpected argument => "unexpected argument '" ++ argument ++ "' found"
  | noCommand => "a subcommand is required"
  | repeated option => "the argument '--" ++ option ++ "' cannot be used multiple times"
  | noValue option => "a value is required for '--" ++ option ++ "'"
  | badValue option value => "invalid value '" ++ value ++ "' for '--" ++ option ++ "'"
  | missing option => "the argument '--" ++ option ++ "' is required"

/-- The commands. -/
inductive CommandName where
  | compile
  | measures
  | fonts
  | help
deriving DecidableEq

namespace CommandName

/-- All commands. -/
def all : List CommandName := [compile, measures, fonts, help]

/-- The word for a command. -/
def label : CommandName → String
  | compile => "compile"
  | measures => "measures"
  | fonts => "fonts"
  | help => "help"

/-- The command with a word. -/
def ofLabel? (s : String) : Option CommandName :=
  all.find? fun c => c.label == s

end CommandName

/-- Why the reading of arguments ends early. -/
inductive Stop where
  | version
  /-- Help on a command, or on the program. -/
  | help (about : Option CommandName)
  | wrong (fault : UsageFault)
deriving DecidableEq

/-! ## One argument -/

/-- The options and switches of a command. -/
structure CommandSpec where
  /-- The command whose help is printed. -/
  name : Option CommandName
  /-- The options with a value, each with the values that it takes. -/
  options : List (String × (String → Bool)) := []
  switches : List String := []
  /-- Whether the version can be asked for. -/
  hasVersion : Bool := false

/-- What an argument is. -/
inductive Argument where
  /-- It asks for more log output. -/
  | verbose
  | switch (name : String)
  /-- An option with its value behind an equals sign. -/
  | option (name value : String)
  /-- An option whose value is the next argument. -/
  | awaiting (name : String)
  | word (s : String)
  /-- A double dash: only words follow. -/
  | separator

namespace CommandSpec

/-- What an argument with two dashes is, taken apart at its equals sign. -/
def readLong (spec : CommandSpec) (name : String) (value : Option String) :
    Except Stop Argument :=
  if (spec.options.lookup name).isSome then
    match value with
    | some v => .ok (.option name v)
    | none => .ok (.awaiting name)
  else if value.isSome then .error (.wrong (.unexpected ("--" ++ name)))
  else if spec.switches.contains name then .ok (.switch name)
  else if name = "verbose" then .ok .verbose
  else if name = "help" then .error (.help spec.name)
  else if name = "version" ∧ spec.hasVersion then .error .version
  else .error (.wrong (.unexpected ("--" ++ name)))

/-- What a row of short switches is. -/
def readShort (spec : CommandSpec) : List Char → Except Stop Argument
  | [] => .ok .verbose
  | 'v' :: cs => readShort spec cs
  | 'h' :: _ => .error (.help spec.name)
  | 'V' :: _ =>
    if spec.hasVersion then .error .version else .error (.wrong (.unexpected "-V"))
  | c :: _ => .error (.wrong (.unexpected (.ofList ['-', c])))

/-- What an argument is. -/
def read (spec : CommandSpec) (argument : String) : Except Stop Argument :=
  match argument.toList with
  | ['-', '-'] => .ok .separator
  | '-' :: '-' :: cs =>
    let value := cs.dropWhile (· ≠ '=')
    spec.readLong (.ofList (cs.takeWhile (· ≠ '=')))
      (if value.isEmpty then none else some (.ofList (value.drop 1)))
  | '-' :: c :: cs => spec.readShort (c :: cs)
  | _ => .ok (.word argument)

end CommandSpec

/-! ## All arguments of a command -/

/-- The values and switches that arguments give. -/
structure Given where
  values : List (String × String) := []
  switches : List String := []

/-- Whether an argument can be the value of the option before it. -/
def isValue (argument : String) : Bool :=
  argument == "-" || argument.toList.head? != some '-'

/-- Give an option a value. -/
def Given.setValue (g : Given) (spec : CommandSpec) (name value : String) :
    Except Stop Given :=
  if !((spec.options.lookup name).any fun accepts => accepts value) then
    .error (.wrong (.badValue name value))
  else if (g.values.lookup name).isSome then .error (.wrong (.repeated name))
  else .ok { g with values := (name, value) :: g.values }

/-- Set a switch. -/
def Given.setSwitch (g : Given) (name : String) : Except Stop Given :=
  if g.switches.contains name then .error (.wrong (.repeated name))
  else .ok { g with switches := name :: g.switches }

/-- Read the arguments of a command. `awaiting` is an option whose value comes next. -/
def readArguments (spec : CommandSpec) :
    Given → (awaiting : Option String) → List String → Except Stop Given
  | g, none, [] => .ok g
  | _, some name, [] => .error (.wrong (.noValue name))
  | g, some name, argument :: rest => do
    if isValue argument then
      readArguments spec (← g.setValue spec name argument) none rest
    else throw (.wrong (.noValue name))
  | g, none, argument :: rest => do
    match ← spec.read argument with
    | .verbose => readArguments spec g none rest
    | .switch name => readArguments spec (← g.setSwitch name) none rest
    | .option name value => readArguments spec (← g.setValue spec name value) none rest
    | .awaiting name => readArguments spec g (some name) rest
    | .word s => throw (.wrong (.unexpected s))
    | .separator =>
      match rest with
      | [] => return g
      | s :: _ => throw (.wrong (.unexpected s))

/-! ## Requests -/

/-- What to compile, and where to. -/
structure CompileRequest where
  design : String
  outDirectory : Option String
  fonts : Option String
  scrollResize : Bool
  print : Bool
deriving DecidableEq

/-- What the arguments ask for. -/
inductive Request where
  | compile (request : CompileRequest)
  /-- List the measures, of one kind of layer or of all. -/
  | measures (kind : Option LayerKind)
  /-- List the fonts in a directory. -/
  | fonts (directory : String)
deriving DecidableEq

/-- The kind of layer with a label in lower case. -/
def kindOf? (s : String) : Option LayerKind :=
  LayerKind.all.find? fun k => k.label.toLower == s

/-- A path is not empty. -/
def isPath (s : String) : Bool :=
  !s.isEmpty

/-- The options and switches in front of the command. -/
def programSpec : CommandSpec := { name := none, hasVersion := true }

/-- The options and switches of a command. -/
def specOf : CommandName → CommandSpec
  | .compile =>
    { name := some .compile
      options := [("in", isPath), ("out-dir", isPath), ("fonts", isPath)]
      switches := ["scroll-resize", "print"] }
  | .measures => { name := some .measures, options := [("kind", fun s => (kindOf? s).isSome)] }
  | .fonts => { name := some .fonts, options := [("dir", isPath)] }
  | .help => { name := some .help }

/-- The value of an option that has to be there. -/
def Given.require (g : Given) (name : String) : Except Stop String :=
  match g.values.lookup name with
  | some v => .ok v
  | none => .error (.wrong (.missing name))

/-- What the arguments behind a command ask for. -/
def Request.ofCommand (command : CommandName) (arguments : List String) :
    Except Stop Request := do
  match command with
  | .compile =>
    let g ← readArguments (specOf .compile) {} none arguments
    let design ← g.require "in"
    let print := g.switches.contains "print"
    if !print then
      let _ ← g.require "out-dir"
    return .compile
      { design, outDirectory := g.values.lookup "out-dir", fonts := g.values.lookup "fonts"
        scrollResize := g.switches.contains "scroll-resize", print }
  | .measures =>
    let g ← readArguments (specOf .measures) {} none arguments
    return .measures ((g.values.lookup "kind").bind kindOf?)
  | .fonts =>
    let g ← readArguments (specOf .fonts) {} none arguments
    return .fonts (← g.require "dir")
  | .help =>
    match arguments with
    | [] => throw (.help none)
    | [s] =>
      match CommandName.ofLabel? s with
      | some about => throw (.help (some about))
      | none => throw (.wrong (.unexpected s))
    | _ :: s :: _ => throw (.wrong (.unexpected s))

/-- What the arguments of the program ask for. -/
def Request.ofArguments : List String → Except Stop Request
  | [] => .error (.wrong .noCommand)
  | argument :: rest => do
    match ← programSpec.read argument with
    | .verbose => ofArguments rest
    | .word s =>
      match CommandName.ofLabel? s with
      | some command => ofCommand command rest
      | none => throw (.wrong (.unexpected s))
    | .separator =>
      match rest with
      | [] => throw (.wrong .noCommand)
      | s :: _ => throw (.wrong (.unexpected s))
    | .switch name | .option name _ | .awaiting name => throw (.wrong (.unexpected name))

end WidgetSkin.CommandLine
