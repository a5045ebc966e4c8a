import LoopHoist.CommandLine.Run

/-!
# The program

Reads the files that the arguments name, and does what the run says.
-/

namespace LoopHoist

/-- The cause of an error of the system, whose codes come with either sign. -/
def FileFault.ofError (other : String → FileFault) : IO.Error → FileFault
  | .noFileOrDirectory .. => .missing
  | .inappropriateType _ code _ =>
      if code.toInt32.toInt.natAbs = 21 then .folder else .notAFolder
  | error => other (toString error)

/-- Whether a path leads to anything, which is when it can be resolved. -/
def leadsSomewhere (path : String) : IO Bool := do
  try
    let _ ← IO.FS.realPath path
    return true
  catch _ =>
    return false

/-- Reads a file. -/
def readPath (path : String) : IO (String × Except FileFault String) := do
  let other := if ← leadsSomewhere path then FileFault.unusable else .unreachable
  try
    return (path, .ok (← IO.FS.readFile path))
  catch error =>
    return (path, .error (.ofError other error))

/-- The files that were read. -/
def filesRead (texts : List (String × Except FileFault String)) : Files := fun path =>
  (texts.lookup path).getD (.error .missing)

/-- Does what a run says. -/
def Run.execute (run : Run) : IO UInt32 := do
  match run.written with
  | none => pure ()
  | some (path, text) =>
      try
        IO.FS.writeFile path text
      catch error =>
        IO.eprintln ("Error: " ++ (Failure.file (.ofError .unusable error)).message)
        return 1
  run.output.forM IO.println
  run.errors.forM IO.eprintln
  return run.exit.toUInt32

end LoopHoist

def main (arguments : List String) : IO UInt32 := do
  let paths := match LoopHoist.Request.parse arguments with
    | .ok request => if request.init then [] else request.paths
    | .error _ => []
  let texts ← paths.mapM LoopHoist.readPath
  (LoopHoist.run arguments (LoopHoist.filesRead texts)).execute
