import LoopHoist.File
import LoopHoist.Json.Printer

/-!
# Settings and programs in files

The extension of a file says whether it is written in YAML; every other file is taken for JSON.
-/

namespace LoopHoist

/-- The text of the file at a path. -/
def readFile (files : Files) (path : String) : Except Failure String :=
  (files path).mapError .file

namespace Settings

/-- The settings in the file at a path. -/
def load (files : Files) (path : String) : Except Failure Settings := do
  let text ← readFile files path
  (Document.Reader.settings.ofText (Path.format path) text).mapError (.settings path)

/-- Settings as a YAML text. -/
def toYaml (settings : Settings) : String :=
  let word (b : Bool) := if b then "true" else "false"
  String.join
    ["optimizationLevel: ", settings.level.name, "\nhoistLoopInvariants: ", word settings.hoist,
      "\npretty: ", word settings.pretty, "\n"]

/-- Settings as a text. -/
def toText (settings : Settings) : Document.Format → String
  | .json => Json.indented (Document.writeSettings settings)
  | .yaml => settings.toYaml

/-- The default settings as the text of a file at a path. -/
def initialText (path : String) : String := (default : Settings).toText (Path.format path)

end Settings

/-- The program in the file at a path, lowered into a tree without places. -/
def Program.load (files : Files) (path : String) : Except Failure Program := do
  let text ← readFile files path
  let document ←
    (Document.Reader.program.ofText (Path.format path) text).mapError (.document (some path))
  (document.lower .dummy).mapError .lowering

end LoopHoist
