import Dialogue.Command.Suggestion
import Dialogue.Text.Quote

/-!
# Tasks and their usage

What the command line offers, the wrong ways to ask for it, and the pages that tell how.
-/

namespace Dialogue.Command

inductive Task where
  | validate
  | generate
  | normalize
  | rename
  | schema
deriving DecidableEq, Repr

structure OptionSpec where
  short : Option Char := none
  long : String
  takesValue : Bool := false
deriving DecidableEq, Repr

def helpOption : OptionSpec := { long := "--help" }
def verboseOption : OptionSpec := { short := some 'v', long := "--verbose" }
def outputOption : OptionSpec := { short := some 'o', long := "--output", takesValue := true }

namespace Task

def all : List Task := [.generate, .normalize, .rename, .schema, .validate]

def name : Task → String
  | .validate => "validate"
  | .generate => "generate"
  | .normalize => "normalize"
  | .rename => "rename"
  | .schema => "schema"

def ofName? (name : String) : Option Task := all.find? fun t => t.name = name

/-- The operands that a task needs. -/
def operands : Task → List String
  | .rename => ["FLOW_FILE", "OLD_ID", "NEW_ID"]
  | .schema => []
  | _ => ["FLOW_FILE"]

def writesFile : Task → Bool
  | .generate | .normalize | .rename => true
  | _ => false

def options (t : Task) : List OptionSpec :=
  if t.writesFile then [outputOption, helpOption] else [helpOption]

def summary : Task → String
  | .validate => "Check a flow file's schema and graph."
  | .generate => "Generate the Pipecat Flows Python module for a flow."
  | .normalize => "Rewrite a flow with derived node types and edges (JSON)."
  | .rename => "Rename a node and every route pointing at it."
  | .schema => "Print the flow document JSON schema."

def outputHelp : Task → String
  | .generate => "Write the module here instead of stdout"
  | .rename => "Defaults to rewriting FLOW_FILE"
  | _ => ""

end Task

def mainOptions : List OptionSpec := [verboseOption, helpOption]

/-! ## Wrong usage -/

/-- What is wrong with a path that is given. -/
inductive PathFault where
  | missing
  | directory
deriving DecidableEq, Repr

inductive UsageFault where
  | noSuchOption (name : String) (meant : List String)
  | valueMissing (option : String)
  | valueUnwanted (option : String)
  | noTask
  | noSuchTask (name : String)
  | badPath (place path : String) (fault : PathFault)
  | operandMissing (name : String)
  | operandsUnwanted (operands : List String)
deriving DecidableEq, Repr

def suggestionText : List String → String
  | [] => ""
  | [name] => " Did you mean " ++ name ++ "?"
  | names => " (Possible options: " ++ ", ".intercalate (names.mergeSort (· ≤ ·)) ++ ")"

def PathFault.text : PathFault → String
  | .missing => " does not exist."
  | .directory => " is a directory."

def UsageFault.message : UsageFault → String
  | .noSuchOption name meant => "No such option: " ++ name ++ suggestionText meant
  | .valueMissing option => "Option '" ++ option ++ "' requires an argument."
  | .valueUnwanted option => "Option '" ++ option ++ "' does not take a value."
  | .noTask => "Missing command."
  | .noSuchTask name => "No such command " ++ Text.quoted name ++ "."
  | .badPath place path fault =>
    "Invalid value for " ++ place ++ ": File " ++ Text.quoted path ++ fault.text
  | .operandMissing name => "Missing argument '" ++ name ++ "'."
  | .operandsUnwanted [operand] => "Got unexpected extra argument (" ++ operand ++ ")"
  | .operandsUnwanted operands =>
    "Got unexpected extra arguments (" ++ " ".intercalate operands ++ ")"

/-! ## Pages -/

/-- How a task is called, or the program when no task is given. -/
def callText : Option Task → String
  | none => "main"
  | some t => "main " ++ t.name

def usageLine (task : Option Task) : String :=
  let operands := match task with
    | none => ["COMMAND", "[ARGS]..."]
    | some t => t.operands
  "Usage: " ++ " ".intercalate (callText task :: "[OPTIONS]" :: operands) ++ "\n"

def faultPage (task : Option Task) (fault : UsageFault) : String :=
  usageLine task ++ "Try '" ++ callText task ++ " --help' for help.\n\nError: " ++ fault.message ++
    "\n"

/-- Two columns, the second starting two places after the longest entry of the first. -/
def columns (rows : List (String × String)) : String :=
  let width := (rows.map fun r => r.1.length).foldl max 0
  String.join (rows.map fun r =>
    let gap := if r.2 = "" then "" else String.ofList (List.replicate (width + 2 - r.1.length) ' ')
    "  " ++ r.1 ++ gap ++ r.2 ++ "\n")

def helpRow : String × String := ("--help", "Show this message and exit.")

def mainHelp : String :=
  usageLine none ++ "\n  Build, check and export conversational flows.\n\nOptions:\n" ++
    columns [("-v, --verbose", "Increase log verbosity (-v info, -vv debug)"), helpRow] ++
    "\nCommands:\n" ++ columns (Task.all.map fun t => (t.name, t.summary))

def taskHelp (t : Task) : String :=
  let output := if t.writesFile then [("-o, --output FILE", t.outputHelp)] else []
  usageLine (some t) ++ "\n  " ++ t.summary ++ "\n\nOptions:\n" ++ columns (output ++ [helpRow])

end Dialogue.Command
