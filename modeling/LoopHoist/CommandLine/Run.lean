import LoopHoist.CommandLine.Arguments
import LoopHoist.CommandLine.Report

/-!
# Meeting a request

A run of the program is a function of its arguments and of what reading files gives.  It says what is
printed, on which channel, which file is written, and how the run ends.
-/

namespace LoopHoist

/-- What a run does. -/
structure Run where
  /-- How the run ends: 0 if all went well. -/
  exit : Nat := 0
  /-- The lines on the standard output. -/
  output : List String := []
  /-- The lines on the error channel. -/
  errors : List String := []
  /-- The path and the text of a file to write. -/
  written : Option (String × String) := none

namespace Run

/-- The name that the program is called by. -/
def programName : String := "triangle-opt"

/-- The version of the program. -/
def version : String := "0.1.0"

/-- The file whose settings are used when it is there and no other is given. -/
def defaultSettings : String := "triangle.yaml"

/-- How the program is called. -/
def usage : List String :=
  ["loop-invariant hoisting for Triangle programs",
    "",
    "Usage: " ++ programName ++ " [OPTIONS] [FILE]...",
    "",
    "Arguments:",
    "  [FILE]...  AST documents to optimise (JSON, or YAML with a .yaml/.yml extension)",
    "",
    "Options:",
    "  -c, --config <FILE>      Path to a configuration file (default: ./triangle.yaml when present)",
    "  -O, --opt-level <LEVEL>  Optimization level (O0, O1, O2)",
    "      --no-hoist           Disable loop-invariant hoisting",
    "      --stats              Print literal counts and pass summaries for each file",
    "      --init               Write a default triangle.yaml to the current directory",
    "      --no-pretty          Plain diagnostics without terminal styling",
    "  -h, --help               Print help",
    "  -V, --version            Print version"]

/-- The run that ends when no request was made. -/
def ofStop : Stop → Run
  | .help => { output := usage }
  | .version => { output := [programName ++ " " ++ version] }
  | stop =>
      { exit := 2
        errors := ["error: " ++ stop.message, "", "For more information, try '--help'."] }

/-- The run that fails for one reason. -/
def failed (reason : String) : Run := { exit := 1, errors := ["Error: " ++ reason] }

/-- The choices that arguments put over the settings. -/
def overrides (request : Request) : Overrides where
  level := request.level
  hoist := if request.noHoist then some false else none
  pretty := if request.noPretty then some false else none

/-- The settings before the arguments are put over them, or what is wrong with them. -/
def baseSettings (request : Request) (files : Files) : Except String Settings :=
  match request.config with
  | some path =>
      (Settings.load files path).mapError fun failure =>
        "Failed to load config file: " ++ failure.message
  | none =>
      if files.hasEntry defaultSettings then
        (Settings.load files defaultSettings).mapError fun failure =>
          "Failed to load " ++ defaultSettings ++ ": " ++ failure.message
      else .ok default

/-- The reports that could be made. -/
def reports (results : List (String × Except Failure Report)) : List Report :=
  results.filterMap fun result => result.2.toOption

/-- The failures, with the paths of the files. -/
def failures (results : List (String × Except Failure Report)) : List (String × Failure) :=
  results.filterMap fun (path, result) =>
    match result with
    | .ok _ => none
    | .error failure => some (path, failure)

/-- The run that tells about files.  Diagnostics come before failures. -/
def ofResults (pretty : Bool) (results : List (String × Except Failure Report)) : Run :=
  let reports := reports results
  let failures := failures results
  let count := toString failures.length ++ " of " ++ toString results.length ++ " file(s) failed"
  { exit := if failures.isEmpty then 0 else 1
    output := reports.flatMap (Report.lines (decide (1 < results.length)))
    errors :=
      reports.flatMap (fun report => report.diagnostics.map (Diagnostic.format pretty)) ++
        failures.map (fun (path, failure) => "error: " ++ path ++ ": " ++ failure.message) ++
        if failures.isEmpty then [] else ["Error: " ++ count] }

/-- The run that meets a request. -/
def ofRequest (request : Request) (files : Files) : Run :=
  if request.init then
    { output := ["Created " ++ defaultSettings]
      written := some (defaultSettings, Settings.initialText defaultSettings) }
  else
    match baseSettings request files with
    | .error reason => failed reason
    | .ok base =>
        if request.files.isEmpty then
          failed "No input files specified. Use --help for usage information."
        else
          let settings := base.merge (overrides request)
          ofResults settings.pretty
            (request.files.map fun path =>
              (path, Report.ofFile files settings request.stats path))

end Run

/-- The paths that meeting a request looks at. -/
def Request.paths (request : Request) : List String :=
  request.config.getD Run.defaultSettings :: request.files

/-- A run of the program with these arguments. -/
def run (arguments : List String) (files : Files) : Run :=
  match Request.parse arguments with
  | .error stop => .ofStop stop
  | .ok request => .ofRequest request files

end LoopHoist
