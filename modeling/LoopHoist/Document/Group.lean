import LoopHoist.Document.Reader
import LoopHoist.Document.Writer
import LoopHoist.Settings
import LoopHoist.Span

/-!
# Programs, spans and settings

What stands alone in a text has no kind: a program, a span, or settings.  The functions ending in `From`
read one from its parts whatever these are, given how to read a part; the others read it from a value.
-/

namespace LoopHoist.Document

variable {β : Type}

/-- The parts of a value that a group of fields is read from. -/
def groupParts (label : String) (value : Value) : Reading (Parts Value) :=
  match value with
  | .mapping entries => .ok (.named entries)
  | .sequence elements => .ok (.placed elements)
  | .null | .boolean _ | .integer _ | .float _ | .text _ =>
      .error (.mismatch value.found (.group label))

/-! ## Programs -/

/-- The form of a program. -/
def programForm : Form := ⟨"struct ProgramNode", ["command"]⟩

/-- Reads a program from its parts. -/
def readProgramFrom (command : β → Reading Command) (parts : Parts β) : Reading Program :=
  programForm.close parts .trailing
    (Program.mk <$> programForm.required parts "command" command)

/-- Reads a program. -/
def readProgram (value : Value) : Reading Program := do
  readProgramFrom (readCommand .outer) (← groupParts "ProgramNode" value)

/-! ## Spans -/

/-- The form of a span. -/
def spanForm : Form := ⟨"struct Span", ["start", "end", "line", "column"]⟩

/-- Reads an unsigned 32-bit number. -/
def readWord32 (value : Value) : Reading Nat :=
  match value with
  | .integer n =>
      if 0 ≤ n ∧ n < Int.pow 2 32 then .ok n.toNat else .error (.unsuitable (.integer n) .word32)
  | other => .error (.mismatch other.found .word32)

/-- Reads a span from its parts. -/
def readSpanFrom (number : β → Reading Nat) (parts : Parts β) : Reading Span :=
  spanForm.close parts .trailing
    (Span.mk <$> spanForm.required parts "start" number <*> spanForm.required parts "end" number
      <*> spanForm.required parts "line" number <*> spanForm.required parts "column" number)

/-- Reads a span. -/
def readSpan (value : Value) : Reading Span := do
  readSpanFrom readWord32 (← groupParts "Span" value)

/-- Writes a span. -/
def writeSpan (span : Span) : Value :=
  .ofFields
    [("start", .integer span.start), ("end", .integer span.stop), ("line", .integer span.line),
      ("column", .integer span.column)]

/-! ## Settings -/

/-- The form of settings. -/
def settingsForm : Form :=
  ⟨"struct OptimizerConfig", ["optimizationLevel", "hoistLoopInvariants", "pretty"]⟩

/-- The level of exactly this name. -/
def levelNamed (name : String) : Reading Level :=
  match Level.ofName? name with
  | some level => .ok level
  | none => .error (.unknownKind name (Level.all.map Level.name))

/-- Reads a level: its name, or a mapping from its name to nothing. -/
def readLevel (value : Value) : Reading Level :=
  match value with
  | .text name => levelNamed name
  | .mapping ((.name name, content) :: rest) => do
      let level ← levelNamed name
      match content, rest with
      | .null, [] => .ok level
      | .null, _ :: _ => .error .noValue
      | other, _ => .error (.mismatch other.found .nothing)
  | _ => .error .noValue

/-- Reads a truth value. -/
def readBoolean (value : Value) : Reading Bool :=
  match value with
  | .boolean b => .ok b
  | other => .error (.mismatch other.found .boolean)

/-- Reads settings from their parts; what is left out is as in the default settings. -/
def readSettingsFrom (level : β → Reading Level) (boolean : β → Reading Bool) (parts : Parts β) :
    Reading Settings :=
  let default : Settings := default
  settingsForm.close parts .trailing
    (Settings.mk <$> settingsForm.optional parts "optimizationLevel" default.level level
      <*> settingsForm.optional parts "hoistLoopInvariants" default.hoist boolean
      <*> settingsForm.optional parts "pretty" default.pretty boolean)

/-- Reads settings. -/
def readSettings (value : Value) : Reading Settings := do
  readSettingsFrom readLevel readBoolean (← groupParts "OptimizerConfig" value)

/-- Writes settings. -/
def writeSettings (settings : Settings) : Value :=
  .ofFields
    [("optimizationLevel", .text settings.level.name),
      ("hoistLoopInvariants", .boolean settings.hoist), ("pretty", .boolean settings.pretty)]

end LoopHoist.Document
