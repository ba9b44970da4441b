import Dialogue.Check.Routing
import Dialogue.Command.Invocation
import Dialogue.Command.Log
import Dialogue.Edit.Flow
import Dialogue.Flow.Loaded
import Dialogue.Flow.Schema
import Dialogue.Json.Writer

/-!
# Running a task

A task reads a flow file and ends with a report: what to print, which file to write, and the exit
code. The report says nothing of how files are read or written.
-/

namespace Dialogue.Command

/-- A file to write, and what is printed once it is written. -/
structure SavedFile where
  path : String
  text : String
  out : String := ""
  err : String := ""

structure Report where
  exitCode : Nat := 0
  out : String := ""
  err : String := ""
  saved : Option SavedFile := none
  /-- A value in the flow that the task could not use at all. -/
  fault : Option Malformed := none

namespace Report

def failed (err : String) (f : Failure) : Report :=
  match f with
  | .malformed m => { exitCode := 1, err, fault := some m }
  | f => { exitCode := 1, err := err ++ f.message ++ "\n" }

/-- A text for a file, or to be printed when no file is named. -/
def produced (err text : String) : Option String → Report
  | none | some "" => { out := text, err }
  | some path => { err, saved := some { path, text, err := "Wrote " ++ path ++ "\n" } }

end Report

/-- What a file is loaded as. Line ends of any kind are read as line feeds. -/
def load (text : String) : Outcome Loaded :=
  Flow.loaded .standard (String.ofList (Text.feedOnly text.toList))

/-- The normalized flow that a file holds. -/
def loadFile (text : String) : Outcome Flow := return (← load text).flow

def flowFileText (d : Document) : Outcome String := return (← (Json.write d).lift) ++ "\n"

/-- The text that a flow is saved as. -/
def dump (v : Yaml.Value) : Outcome String := do flowFileText (← Exchange.form v)

/-- Continues with the flow in a file, after what is logged of loading it. -/
def withFlow (verbosity : Nat) (text : String) (next : String → Loaded → Report) : Report :=
  match load text with
  | .error f => .failed "" f
  | .ok l => next (logText verbosity [loadedLine l.flow]) l

/-! ## Tasks -/

variable [Literal.CharNames]

def issueLine (i : RouteIssue) : String := i.severity.name ++ ": " ++ i.text ++ "\n"

def validateFlow (path : String) (err : String) (flow : Flow) : Report :=
  match (Check.routeIssues flow.document).lift with
  | .error f => .failed err f
  | .ok issues =>
    let err := err ++ String.join (issues.map issueLine)
    if issues.any fun i => i.severity = .error then { exitCode := 1, err }
    else { out := path ++ ": OK (" ++ toString flow.nodes.length ++ " nodes)\n", err }

def generateFlow (settings : Settings) (verbosity : Nat) (output : Option String) (err : String)
    (flow : Flow) : Report :=
  match Check.exportable flow.document with
  | .error f => .failed err f
  | .ok flow =>
    match (Script.generate settings flow).lift with
    | .error f => .failed err f
    | .ok text => .produced (err ++ logText verbosity (generatedLines flow)) text output

def normalizeFlow (output : Option String) (err : String) (l : Loaded) : Report :=
  match dump l.value with
  | .error f => .failed err f
  | .ok text => .produced err text output

def renameFlow (settings : Settings) (r : Renaming) (flow : Document) :
    Outcome (String × Nat × Document) := do
  let final ← Edit.planRename settings r flow
  let renamed ← Edit.rename settings r flow
  let count ← (Edit.countInFlow r.old flow).lift
  .ok (final, count, renamed)

def renameTask (settings : Settings) (verbosity : Nat) (path : String) (r : Renaming)
    (err : String) (l : Loaded) : Report :=
  match renameFlow settings r l.flow.document with
  | .error f => .failed err f
  | .ok (final, count, renamed) =>
    let err := err ++ logText verbosity (renameLines r.old r.new final count)
    match dump (l.withOpen renamed) with
    | .error f => .failed err f
    | .ok text => { err, saved := some {
        path, text
        out := "Renamed " ++ r.old ++ " -> " ++ final ++ "\n"
        err := logText verbosity [wroteLine path] } }

def schemaReport : Report :=
  match Json.write flowSchema with
  | .ok text => { out := text ++ "\n" }
  | .error m => { exitCode := 1, fault := some m }

/-! ## From arguments to a report -/

def perform (settings : Settings) (i : Invocation) (path text : String) : Report :=
  withFlow i.verbosity text fun err l =>
    match i.task, i.operands with
    | .validate, _ => validateFlow path err l.flow
    | .generate, _ => generateFlow settings i.verbosity i.output err l.flow
    | .normalize, _ => normalizeFlow i.output err l
    | .rename, [_, old, new] =>
      let target := match i.output with
        | none | some "" => path
        | some output => output
      renameTask settings i.verbosity target ⟨old, new⟩ err l
    | _, _ => {}

def Stop.report : Stop → Report
  | .help none => { out := mainHelp }
  | .help (some t) => { out := taskHelp t }
  | .noArguments => { exitCode := 2, err := mainHelp }
  | .wrong task fault => { exitCode := 2, err := faultPage task fault }

/-- Does what an invocation asks for, where `look` tells what there is under its paths. -/
def runInvocation (settings : Settings) (look : String → Entry) (i : Invocation) :
    Except Stop Report := do
  checkOutput i look
  if i.task = .schema then
    checkOperands i
    .ok schemaReport
  else
    let (path, text) ← flowText i look
    checkOperands i
    .ok (perform settings i path text)

def report : Except Stop Report → Report
  | .ok r => r
  | .error s => s.report

/-- The whole program on arguments and variables. -/
def run (vars : Settings.Variables) (look : String → Entry) (args : List String) : Report :=
  report (do runInvocation (Settings.ofVariables vars) look (← parse args))

end Dialogue.Command
