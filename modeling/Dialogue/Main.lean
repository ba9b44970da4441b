import Dialogue.Command.Run

/-!
# The program

Looks up the paths that the arguments name, runs the task, and carries out its report.
-/

open Dialogue Dialogue.Command

def variableNames : List String := [
  "FLOWSMITH_DECISION_OFFSET_X", "FLOWSMITH_DECISION_OFFSET_Y", "FLOWSMITH_DUPLICATE_OFFSET_X",
  "FLOWSMITH_DUPLICATE_OFFSET_Y", "FLOWSMITH_MAX_SUFFIX_ATTEMPTS", "FLOWSMITH_HOST_MODULE"]

def readVariables : IO Settings.Variables :=
  variableNames.filterMapM fun name => do
    return (← IO.getEnv name).map (name, ·)

/-- What is under a path; what can be opened but not read as a text is a directory. -/
def readEntry (path : String) : IO Entry :=
  try
    return .file (← IO.FS.readFile path)
  catch
    | .noFileOrDirectory .. => return .missing
    | .inappropriateType .. => return .directory
    | e => throw e

def lookUp (entries : List (String × Entry)) (path : String) : Entry :=
  (entries.lookup path).getD .missing

def printFault (m : Malformed) : IO Unit := IO.eprintln m.message

def saveFile (f : SavedFile) : IO Unit := do
  IO.FS.writeFile f.path f.text
  IO.print f.out
  IO.eprint f.err

def carryOut (r : Report) : IO UInt32 := do
  IO.print r.out
  IO.eprint r.err
  r.fault.forM printFault
  r.saved.forM saveFile
  return r.exitCode.toUInt32

def main (args : List String) : IO UInt32 := do
  let settings := Settings.ofVariables (← readVariables)
  match parse args with
  | .error s => carryOut s.report
  | .ok i =>
    let entries ← i.paths.mapM fun path => return (path, ← readEntry path)
    carryOut (report (runInvocation settings (lookUp entries) i))
