import LoopHoist.Document.Lowering
import LoopHoist.Document.Text

/-!
# Failures

What can go wrong around the optimiser, which itself never fails: files cannot be read, settings and
programs in them can be faulty, and a level can be asked for that does not exist.
-/

namespace LoopHoist

/-- Why a file cannot be read or written. -/
inductive FileFault where
  | missing
  | folder
  | notAFolder
  /-- The path leads nowhere for another cause, in the words of the system. -/
  | unreachable (words : String)
  /-- What the path leads to cannot be used for another cause, in the words of the system. -/
  | unusable (words : String)
deriving DecidableEq

/-- The wording of the reason. -/
def FileFault.message : FileFault → String
  | .missing => "No such file or directory (os error 2)"
  | .folder => "Is a directory (os error 21)"
  | .notAFolder => "Not a directory (os error 20)"
  | .unreachable words | .unusable words => words

/-- Whether the reason is that the path leads nowhere, rather than what it leads to. -/
def FileFault.isAbsence : FileFault → Bool
  | .missing | .notAFolder | .unreachable _ => true
  | .folder | .unusable _ => false

/-- Why a request cannot be met. -/
inductive Failure where
  | file (cause : FileFault)
  /-- The file at this path holds no settings. -/
  | settings (path : String) (cause : Document.TextFault)
  /-- There is no such level. -/
  | level (text : String)
  /-- A text, which is that of the file at the path if there is one, holds no document. -/
  | document (path : Option String) (cause : Document.TextFault)
  /-- The document that was read makes no tree. -/
  | lowering (cause : Document.LoweringFault)

/-- The wording of a failure. -/
def Failure.message : Failure → String
  | .file cause => "IO error: " ++ cause.message
  | .settings path cause => "Invalid configuration: " ++ path ++ ": " ++ cause.message
  | .level text =>
      "Invalid configuration: unknown optimization level '" ++ text ++ "' (expected O0, O1 or O2)"
  | .document none cause => "Invalid AST file: " ++ cause.message
  | .document (some path) cause => "Invalid AST file: " ++ path ++ ": " ++ cause.message
  | .lowering cause => "Invalid AST file: " ++ cause.message

/-- The level that a user asks for. -/
def Level.parse (text : String) : Except Failure Level :=
  match Level.parse? text with
  | some level => .ok level
  | none => .error (.level text)

end LoopHoist
