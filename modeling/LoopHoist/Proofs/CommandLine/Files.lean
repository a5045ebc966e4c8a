import LoopHoist.CommandLine.Run
import LoopHoist.Proofs.Optimizer.Calls
import Mathlib.Data.List.Basic

/-!
# Files are told about one by one

A run that is asked to optimise files tells about each of them as if the others were not there.
`Settings.told` says what it tells about a file: a function of the settings, of whether an account
was asked for, and of the path and the contents of that one file.  `run_of_processing` says that the
standard output of a run is this for all files that hold a program, in the order of the arguments,
with a heading if there are several files, and that it is also what a run on the file alone prints.

An optimiser adds up over its life what its passes do.  Each file has an optimiser of its own, so
what is told about a program counts what was hoisted in that program only
(`Optimizer.summaries_optimize_ofSettings`).
-/

namespace LoopHoist

open Document (Value)

/-! ## What is told about a program -/

namespace Settings

/-- Whether values are hoisted at all. -/
def hoists (settings : Settings) : Bool := settings.hoist && settings.level != .O0

/-- The program that takes the place of a program, if any does. -/
def replacement (settings : Settings) (program : Program) : Option Program :=
  if settings.hoists then program.hoist.replacement else none

/-- What was done to a program: the literals it has, what hoisting in it has to report, and whether
it is still the same. -/
def account (settings : Settings) (program : Program) : Value :=
  .ofFields
    [("literals", .ofFields
        [("characterExpressions", .integer program.literals.characters),
          ("integerExpressions", .integer program.literals.integers)]),
      ("passes", .sequence
        ((if settings.hoists then program.hoist.stats.summary else none).toList.map fun summary =>
          .ofFields [("pass", .text "loop-hoisting"), ("summary", .text summary)])),
      ("unchanged", .boolean (settings.replacement program).isNone)]

/-- The lines about a program: the program as it is now, and an account if one was asked for. -/
def lines (settings : Settings) (stats : Bool) (program : Program) : List String :=
  ((settings.replacement program).getD program).print ::
    if stats then [Json.compact (settings.account program)] else []

/-- The lines about a file with the given path and contents, if there is a program in it. -/
def told (settings : Settings) (stats : Bool) (path : String)
    (contents : Except FileFault String) : Option (List String) :=
  (Program.load (fun _ => contents) path).toOption.map (settings.lines stats)

end Settings

theorem Optimizer.replacement_optimize_ofSettings (settings : Settings) (program : Program) :
    ((Optimizer.ofSettings settings).optimize program).replacement =
      settings.replacement program := by
  obtain ⟨level, hoist, pretty⟩ := settings
  cases level <;> cases hoist <;> rfl

theorem Optimizer.passes_optimize_ofSettings (settings : Settings) (program : Program) :
    ((Optimizer.ofSettings settings).optimize program).optimizer.passes =
      if settings.hoist then
        [.hoistingAfter (if settings.hoists then program.hoist.stats else 0)]
      else [] := by
  obtain ⟨level, hoist, pretty⟩ := settings
  cases hoist with
  | false => cases level <;> rfl
  | true =>
      cases level with
      | O0 => rfl
      | O1 | O2 =>
          -- the pass is new and starts counting at zero
          have hsum : (0 : HoistingStats) + program.hoist.stats = program.hoist.stats := zero_add _
          exact congrArg (fun stats => [Pass.hoistingAfter stats]) hsum

/-- A new optimiser reports what was hoisted in the one program it was called on. -/
theorem Optimizer.summaries_optimize_ofSettings (settings : Settings) (program : Program) :
    ((Optimizer.ofSettings settings).optimize program).optimizer.summaries =
      (if settings.hoists then program.hoist.stats.summary else none).toList.map
        fun summary => ("loop-hoisting", summary) := by
  rw [Optimizer.summaries, Optimizer.passes_optimize_ofSettings]
  have hreport : ∀ stats : HoistingStats, [Pass.hoistingAfter stats].filterMap
      (fun pass => pass.summary.map fun summary => (pass.name, summary)) =
        stats.summary.toList.map fun summary => ("loop-hoisting", summary) := by
    intro stats
    have hsummary : (Pass.hoistingAfter stats).summary = stats.summary := rfl
    have hname : (Pass.hoistingAfter stats).name = "loop-hoisting" := rfl
    cases hstats : stats.summary <;> simp [hsummary, hname, hstats]
  by_cases hhoist : settings.hoist = true
  · rw [if_pos hhoist, hreport]
    split
    · rfl
    · rfl
  · -- no pass was registered, and nothing is told
    have hhoists : settings.hoists = false := by simp [Settings.hoists, hhoist]
    rw [if_neg hhoist, hhoists]
    rfl

/-- The lines of a report are those that the settings ask for, under a heading if there are several
reports. -/
theorem Report.lines_ofProgram (settings : Settings) (stats several : Bool) (path : String)
    (program : Program) :
    (Report.ofProgram settings stats path program).lines several =
      (if several then ["== " ++ path ++ " =="] else []) ++ settings.lines stats program := by
  have haccount : Report.statsValue program ((Optimizer.ofSettings settings).optimize program) =
      settings.account program := by
    rw [Report.statsValue, Optimizer.summaries_optimize_ofSettings,
      Optimizer.replacement_optimize_ofSettings, List.map_map]
    rfl
  simp only [Report.lines, Report.ofProgram, Optimizer.replacement_optimize_ofSettings, haccount,
    Settings.lines]
  cases stats <;> simp

/-! ## What a run tells -/

/-- Arguments that ask for files to be optimised, and the settings that are in effect for them. -/
structure Processing (arguments : List String) (files : Files) (request : Request)
    (settings : Settings) : Prop where
  parsed : Request.parse arguments = .ok request
  noInit : request.init = false
  nonempty : request.files ≠ []
  settings_eq : ∃ base, Run.baseSettings request files = .ok base ∧
    settings = base.merge (Run.overrides request)

/-- Whether a line on the error channel says why the run as a whole fails. -/
def Run.isVerdict (line : String) : Bool := "Error: ".toList.isPrefixOf line.toList

section

variable {arguments : List String} {files : Files} {request : Request} {settings : Settings}

theorem Processing.run_eq (hprocessing : Processing arguments files request settings) :
    run arguments files = .ofResults settings.pretty
      (request.files.map fun path => (path, Report.ofFile files settings request.stats path)) := by
  obtain ⟨hparsed, hinit, hnonempty, base, hbase, rfl⟩ := hprocessing
  simp [run, hparsed, Run.ofRequest, hinit, hbase, hnonempty]

/-- Nothing but the contents of a file matters for what is told about it. -/
theorem Report.toOption_ofFile (files : Files) (settings : Settings) (stats several : Bool)
    (path : String) :
    (Report.ofFile files settings stats path).toOption.map (Report.lines several) =
      (settings.told stats path (files path)).map
        ((if several then ["== " ++ path ++ " =="] else []) ++ ·) := by
  have hload : Program.load files path = Program.load (fun _ => files path) path := rfl
  rw [Settings.told, ← hload, Report.ofFile]
  cases Program.load files path with
  | error failure => rfl
  | ok program => exact congrArg some (Report.lines_ofProgram settings stats several path program)

theorem Run.output_ofResults (pretty : Bool) (result : String → Except Failure Report)
    (paths : List String) :
    (Run.ofResults pretty (paths.map fun path => (path, result path))).output =
      paths.flatMap fun path =>
        ((result path).toOption.map (Report.lines (decide (1 < paths.length)))).getD [] := by
  simp only [Run.ofResults, Run.reports, List.length_map]
  generalize decide (1 < paths.length) = several
  induction paths with
  | nil => rfl
  | cons path rest ih =>
      rw [List.map_cons, List.filterMap_cons, List.flatMap_cons, ← ih]
      cases result path <;> rfl

theorem Run.length_failures (result : String → Except Failure Report) (paths : List String) :
    (Run.failures (paths.map fun path => (path, result path))).length =
      paths.countP fun path => (result path).toOption.isNone := by
  rw [Run.failures]
  induction paths with
  | nil => rfl
  | cons path rest ih =>
      rw [List.map_cons, List.filterMap_cons, List.countP_cons, ← ih]
      cases result path <;> rfl

theorem Run.isVerdict_format (pretty : Bool) (diagnostic : Diagnostic) :
    Run.isVerdict (diagnostic.format pretty) = false := by
  obtain ⟨severity, span, message⟩ := diagnostic
  cases pretty <;> cases severity <;>
    simp [Run.isVerdict, Diagnostic.format, Severity.label, List.isPrefixOf]

/-- Neither a diagnostic nor the failure of a file reads like the failure of the run. -/
theorem Run.filter_isVerdict_ofResults (pretty : Bool)
    (results : List (String × Except Failure Report)) :
    (Run.ofResults pretty results).errors.filter Run.isVerdict =
      if Run.failures results = [] then []
      else ["Error: " ++ (toString (Run.failures results).length ++ " of " ++
        toString results.length ++ " file(s) failed")] := by
  -- the labels of diagnostics and failures are spelled with small letters, the verdict is not
  have hdiagnostics : ((Run.reports results).flatMap fun report =>
      report.diagnostics.map (Diagnostic.format pretty)).filter Run.isVerdict = [] := by
    rw [List.filter_eq_nil_iff]
    intro line hline
    obtain ⟨report, -, hmem⟩ := List.mem_flatMap.mp hline
    obtain ⟨diagnostic, -, rfl⟩ := List.mem_map.mp hmem
    rw [Run.isVerdict_format]
    exact Bool.false_ne_true
  have hfailures : ((Run.failures results).map fun failure =>
      "error: " ++ failure.1 ++ ": " ++ failure.2.message).filter Run.isVerdict = [] := by
    rw [List.filter_eq_nil_iff]
    intro line hline
    obtain ⟨failure, -, rfl⟩ := List.mem_map.mp hline
    simp [Run.isVerdict, List.isPrefixOf]
  have hverdict : ∀ reason, Run.isVerdict ("Error: " ++ reason) = true := by
    intro reason
    simp [Run.isVerdict, List.isPrefixOf]
  simp only [Run.ofResults, List.filter_append, hdiagnostics, hfailures, List.nil_append,
    List.isEmpty_iff]
  split
  · rfl
  · exact List.filter_cons_of_pos (hverdict _)

end

/-- **Each file is told about as if it were alone.**  A run that is asked to optimise files prints
what is to be told about those that hold a program, in the order of the arguments, each under a
heading if several files are listed.  What it tells about a file is what a run prints that is asked
for this file only, with the same settings in effect and the same contents in the file.  The run
fails exactly if some file does, and says how many. -/
theorem run_of_processing {arguments : List String} {files : Files} {request : Request}
    {settings : Settings} (hprocessing : Processing arguments files request settings) :
    let told path := settings.told request.stats path (files path)
    let heading path := if 1 < request.files.length then ["== " ++ path ++ " =="] else []
    let failed := request.files.countP fun path => (told path).isNone
    (run arguments files).output =
        request.files.flatMap (fun path => ((told path).map (heading path ++ ·)).getD []) ∧
      (∀ path ∈ request.files, ∀ {arguments' : List String} {files' : Files} {request' : Request},
        Processing arguments' files' request' settings → request'.files = [path] →
        request'.stats = request.stats → files' path = files path →
          (run arguments' files').output = (told path).getD []) ∧
      (run arguments files).exit = (if failed = 0 then 0 else 1) ∧
      (run arguments files).errors.filter Run.isVerdict =
        if failed = 0 then []
        else ["Error: " ++ (toString failed ++ " of " ++ toString request.files.length ++
          " file(s) failed")] := by
  intro told heading failed
  have houtput : ∀ {arguments' : List String} {files' : Files} {request' : Request},
      Processing arguments' files' request' settings → (run arguments' files').output =
        request'.files.flatMap fun path => ((settings.told request'.stats path (files' path)).map
          ((if 1 < request'.files.length then ["== " ++ path ++ " =="] else []) ++ ·)).getD [] := by
    intro arguments' files' request' hprocessing'
    rw [hprocessing'.run_eq, Run.output_ofResults]
    simp only [Report.toOption_ofFile, decide_eq_true_eq]
  -- a file fails exactly if there is nothing to tell about it
  have hfailed : (Run.failures (request.files.map fun path =>
      (path, Report.ofFile files settings request.stats path))).length = failed := by
    rw [Run.length_failures]
    refine List.countP_congr fun path _ => ?_
    have htold := congrArg Option.isNone
      (Report.toOption_ofFile files settings request.stats false path)
    rw [Option.isNone_map, Option.isNone_map] at htold
    rw [htold]
  refine ⟨houtput hprocessing, ?_, ?_, ?_⟩
  · intro path _ arguments' files' request' hprocessing' hpath hstats hcontents
    rw [houtput hprocessing', hpath, hstats, List.flatMap_singleton, hcontents]
    simp [told]
  · rw [hprocessing.run_eq, Run.ofResults]
    simp only [List.isEmpty_iff, ← List.length_eq_zero_iff, hfailed]
  · rw [hprocessing.run_eq, Run.filter_isVerdict_ofResults]
    simp only [← List.length_eq_zero_iff, hfailed, List.length_map]

/-- A folder with one file, `p`, in which there is the program `while c do x := 1`. -/
def oneFile : Files := fun path =>
  if path = "p" then
    .ok (String.join
      ["\x7b\"command\":\x7b\"kind\":\"while\",",
        "\"condition\":\x7b\"kind\":\"var\",\"name\":\"c\"\x7d,",
        "\"body\":\x7b\"kind\":\"assign\",\"target\":\x7b\"kind\":\"simple\",\"name\":\"x\"\x7d,",
        "\"value\":\x7b\"kind\":\"integer\",\"value\":1\x7d\x7d\x7d\x7d"])
  else .error .missing

theorem format_p : Path.format "p" = .json := by
  have hsplit : "p".splitOn "/" = ["p"] ∧ "p".splitOn "." = ["p"] := by
    constructor
    all_goals
      rw [String.splitOn, if_neg (by decide), String.splitOnAux, if_neg (by decide),
        if_neg (by decide), String.splitOnAux, if_pos (by decide)]
      decide
  have hcomponents : Path.components "p" = ["p"] := by
    rw [Path.components, hsplit.1]
    decide
  have hname : ["p"].getLast?.filter (· != "..") = some "p" := by decide
  rw [Path.format, Path.extension?, hcomponents, hname, Option.bind_some, Path.extensionOf?,
    hsplit.2]

/-- Of two files one is missing: the other is told about as in a run of its own. -/
theorem run_of_processing_oneFile :
    let request : Request := { files := ["p", "q"], stats := true }
    let lines := ["let const $h1 ~ 1 in while c do x := $h1",
      "\x7b\"literals\":\x7b\"characterExpressions\":0,\"integerExpressions\":1\x7d,\"passes\":[" ++
        "\x7b\"pass\":\"loop-hoisting\",\"summary\":\"hoisted 1 loop-invariant expression(s) " ++
        "out of 1 loop(s)\"\x7d],\"unchanged\":false\x7d"]
    Processing ["--stats", "p", "q"] oneFile request default ∧
      (run ["--stats", "p", "q"] oneFile).output = "== p ==" :: lines ∧
      (run ["p", "--stats"] oneFile).output = lines ∧
      (run ["--stats", "p", "q"] oneFile).exit = 1 ∧
      (run ["--stats", "p", "q"] oneFile).errors.filter Run.isVerdict =
        ["Error: 1 of 2 file(s) failed"] := by
  intro request lines
  have hsettings : ∀ request : Request, request.config = none → request.level = none →
      request.noHoist = false → request.noPretty = false →
      ∃ base, Run.baseSettings request oneFile = .ok base ∧
        default = base.merge (Run.overrides request) := by
    intro request hconfig hlevel hhoist hpretty
    refine ⟨default, ?_, ?_⟩
    · simp [Run.baseSettings, hconfig, Files.hasEntry, oneFile, Run.defaultSettings,
        FileFault.isAbsence]
    · simp [Run.overrides, hlevel, hhoist, hpretty, Settings.merge]
  have hboth : Processing ["--stats", "p", "q"] oneFile request default :=
    ⟨by decide +kernel, rfl, by decide, hsettings request rfl rfl rfl rfl⟩
  have halone : Processing ["p", "--stats"] oneFile { files := ["p"], stats := true } default :=
    ⟨by decide +kernel, rfl, by decide, hsettings _ rfl rfl rfl rfl⟩
  have hp : (default : Settings).told true "p" (oneFile "p") = some lines := by
    rw [Settings.told, Program.load, format_p]
    decide +kernel
  have hq : (default : Settings).told true "q" (oneFile "q") = none := rfl
  obtain ⟨houtput, hsame, hexit, hverdict⟩ := run_of_processing hboth
  have hfailed : request.files.countP
      (fun path => ((default : Settings).told request.stats path (oneFile path)).isNone) = 1 := by
    simp [request, hp, hq]
  rw [hfailed] at hexit hverdict
  simp only [request, List.flatMap_cons, List.flatMap_nil, hp, hq] at houtput
  refine ⟨hboth, houtput, ?_, hexit, hverdict.trans (by decide)⟩
  have hlines := hsame "p" (by decide) halone rfl rfl rfl
  simp only [request, hp] at hlines
  exact hlines

end LoopHoist
