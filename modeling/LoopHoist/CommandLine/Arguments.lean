import LoopHoist.Failure

/-!
# Arguments

What a user asks for on the command line.  Arguments are read from left to right.  The value of an option
and the paths of files are first collected and are checked only when the next option starts, when a path
follows the value, or at the end.  So an argument that nobody knows is reported even after a bad value.

## Spellings

The value of an option can stand in the next argument, after an equals sign, or, after a short name,
right behind it.  Short names can be put together as long as none but the last one has a value.  After `--`
every argument is a path.
-/

namespace LoopHoist

/-- What a user asks for. -/
structure Request where
  /-- The paths of the programs to optimise. -/
  files : List String := []
  /-- The path of a file with settings. -/
  config : Option String := none
  level : Option Level := none
  noHoist : Bool := false
  /-- Whether to tell what was done to each program. -/
  stats : Bool := false
  /-- Whether to write a file with the default settings, and do nothing else. -/
  init : Bool := false
  noPretty : Bool := false
deriving DecidableEq

/-! ## Options -/

/-- An option without a value. -/
inductive Switch where
  | noHoist
  | stats
  | init
  | noPretty
  | help
  | version
deriving DecidableEq

/-- An option with a value. -/
inductive Setting where
  | config
  | level
deriving DecidableEq

/-- An option. -/
inductive Flag where
  | switch (switch : Switch)
  | setting (setting : Setting)
deriving DecidableEq

/-- How messages speak of an option without a value. -/
def Switch.label : Switch → String
  | .noHoist => "--no-hoist"
  | .stats => "--stats"
  | .init => "--init"
  | .noPretty => "--no-pretty"
  | .help => "--help"
  | .version => "--version"

/-- How messages speak of an option with a value. -/
def Setting.label : Setting → String
  | .config => "--config <FILE>"
  | .level => "--opt-level <LEVEL>"

/-- How messages speak of the paths. -/
def filesLabel : String := "[FILE]..."

/-- The option with this long name. -/
def Flag.ofName? : String → Option Flag
  | "no-hoist" => some (.switch .noHoist)
  | "stats" => some (.switch .stats)
  | "init" => some (.switch .init)
  | "no-pretty" => some (.switch .noPretty)
  | "help" => some (.switch .help)
  | "version" => some (.switch .version)
  | "config" => some (.setting .config)
  | "opt-level" => some (.setting .level)
  | _ => none

/-- The option with this short name. -/
def Flag.ofLetter? : Char → Option Flag
  | 'h' => some (.switch .help)
  | 'V' => some (.switch .version)
  | 'c' => some (.setting .config)
  | 'O' => some (.setting .level)
  | _ => none

/-! ## Refusals -/

/-- Why reading arguments ends without a request. -/
inductive Stop where
  | help
  | version
  | unknown (argument : String)
  /-- A value was given to an option that has none. -/
  | surplusValue (value : String) (switch : Switch)
  | missingValue (label : String)
  | repeated (label : String)
  | badLevel (text : String)
deriving DecidableEq

/-- The wording of a refusal.  Help and the version are not refused, and nothing is said. -/
def Stop.message : Stop → String
  | .help | .version => ""
  | .unknown argument => "unexpected argument '" ++ argument ++ "' found"
  | .surplusValue value switch =>
      "unexpected value '" ++ value ++ "' for '" ++ switch.label ++ "' found; no more were expected"
  | .missingValue label => "a value is required for '" ++ label ++ "' but none was supplied"
  | .repeated label => "the argument '" ++ label ++ "' cannot be used multiple times"
  | .badLevel text =>
      "invalid value '" ++ text ++ "' for '" ++ Setting.level.label ++ "': " ++
        (Failure.level text).message

/-- What reading arguments gives. -/
abbrev Parsed (α : Type) := Except Stop α

namespace Request

/-! ## Options that are complete -/

/-- Turns on an option without a value. -/
def turnOn (request : Request) (switch : Switch) : Parsed Request :=
  let once (isOn : Bool) (after : Request) : Parsed Request :=
    if isOn then .error (.repeated switch.label) else .ok after
  match switch with
  | .noHoist => once request.noHoist { request with noHoist := true }
  | .stats => once request.stats { request with stats := true }
  | .init => once request.init { request with init := true }
  | .noPretty => once request.noPretty { request with noPretty := true }
  | .help => .error .help
  | .version => .error .version

/-- Gives a value to an option. -/
def set (request : Request) (setting : Setting) (value : String) : Parsed Request :=
  match setting with
  | .config =>
      if request.config.isSome then .error (.repeated setting.label)
      else if value.isEmpty then .error (.missingValue setting.label)
      else .ok { request with config := some value }
  | .level =>
      if request.level.isSome then .error (.repeated setting.label)
      else
        match Level.parse? value with
        | some level => .ok { request with level := some level }
        | none => .error (.badLevel value)

/-- Adds paths. -/
def addFiles (request : Request) (paths : List String) : Parsed Request :=
  if paths.any String.isEmpty then .error (.missingValue filesLabel)
  else .ok { request with files := request.files ++ paths }

end Request

/-! ## Arguments one after another -/

/-- What was collected and is still to be checked. -/
inductive Pending where
  | nothing
  /-- An option, with its value if that was there already. -/
  | setting (setting : Setting) (value : Option String)
  | files (paths : List String)

/-- The arguments read so far. -/
structure Progress where
  request : Request := {}
  pending : Pending := .nothing

namespace Progress

/-- Checks what was collected. -/
def settle (progress : Progress) : Parsed Request :=
  match progress.pending with
  | .nothing => .ok progress.request
  | .setting setting none => .error (.missingValue setting.label)
  | .setting setting (some value) => progress.request.set setting value
  | .files paths => progress.request.addFiles paths

/-- An option without a value. -/
def switch (progress : Progress) (switch : Switch) : Parsed Progress := do
  let request ← (← progress.settle).turnOn switch
  return { request := request }

/-- An option with a value, which can come later. -/
def setting (progress : Progress) (setting : Setting) (value : Option String) : Parsed Progress := do
  let request ← progress.settle
  match value with
  | none => return { request := request, pending := .setting setting none }
  | some value => return { request := ← request.set setting value }

/-- A path. -/
def file (progress : Progress) (path : String) : Parsed Progress :=
  match progress.pending with
  | .files paths => .ok { progress with pending := .files (paths ++ [path]) }
  | _ => do return { request := ← progress.settle, pending := .files [path] }

/-- An argument that is no option: the value of the option before it if that needs one, and a path
otherwise. -/
def word (progress : Progress) (text : String) : Parsed Progress :=
  match progress.pending with
  | .setting setting none => .ok { progress with pending := .setting setting (some text) }
  | _ => progress.file text

/-- An option with a long name, after its dashes. -/
def long (progress : Progress) (name : String) (value : Option String) : Parsed Progress :=
  match Flag.ofName? name, value with
  | none, _ => .error (.unknown ("--" ++ name))
  | some (.switch switch), none => progress.switch switch
  | some (.switch switch), some value => .error (.surplusValue value switch)
  | some (.setting setting), value => progress.setting setting value

/-- The value that follows a short name directly. -/
def directValue : List Char → Option String
  | [] => none
  | '=' :: rest => some (String.ofList rest)
  | rest => some (String.ofList rest)

/-- Options with short names, after the dash. -/
def short (progress : Progress) : List Char → Parsed Progress
  | [] => .ok progress
  | c :: rest =>
      match Flag.ofLetter? c with
      | none => .error (.unknown ("-" ++ String.singleton c))
      | some (.switch switch) => do (← progress.switch switch).short rest
      | some (.setting setting) => progress.setting setting (directValue rest)

/-- The name and the value of a long option after its dashes. -/
def splitValue (cs : List Char) : String × Option String :=
  match cs.dropWhile (· != '=') with
  | [] => (String.ofList cs, none)
  | _ :: value => (String.ofList (cs.takeWhile (· != '=')), some (String.ofList value))

/-- Arguments of which none is an option. -/
def runFiles (progress : Progress) : List String → Parsed Request
  | [] => progress.settle
  | path :: rest => do (← progress.file path).runFiles rest

/-- Arguments. -/
def run (progress : Progress) : List String → Parsed Request
  | [] => progress.settle
  | argument :: rest =>
      match argument.toList with
      | ['-', '-'] => progress.runFiles rest
      | '-' :: '-' :: cs => do
          let (name, value) := splitValue cs
          (← progress.long name value).run rest
      | '-' :: c :: cs => do (← progress.short (c :: cs)).run rest
      | _ => do (← progress.word argument).run rest

end Progress

/-- The request that arguments make. -/
def Request.parse (arguments : List String) : Parsed Request := Progress.run {} arguments

end LoopHoist
