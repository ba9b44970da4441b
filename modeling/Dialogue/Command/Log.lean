import Dialogue.Number.Text
import Dialogue.Script.Module

/-!
# Log lines

What the program tells of its work on the side. Warnings always show; more verbosity shows more.
-/

namespace Dialogue.Command

inductive Level where
  | debug
  | info
  | warning
deriving DecidableEq, Repr

def Level.name : Level → String
  | .debug => "DEBUG"
  | .info => "INFO"
  | .warning => "WARNING"

/-- The verbosity from which lines of a level show. -/
def Level.threshold : Level → Nat
  | .warning => 0
  | .info => 1
  | .debug => 2

structure LogLine where
  level : Level
  source : String
  message : String

def LogLine.text (l : LogLine) : String :=
  l.level.name ++ " " ++ l.source ++ ": " ++ l.message ++ "\n"

def logText (verbosity : Nat) (ls : List LogLine) : String :=
  String.join ((ls.filter fun l => l.level.threshold ≤ verbosity).map LogLine.text)

def loaderSource : String := "flowsmith.flow.loader"
def integritySource : String := "flowsmith.flow.integrity"
def generatorSource : String := "flowsmith.integrations.pipecat.python_codegen"

def loadedLine (flow : Flow) : LogLine :=
  ⟨.info, loaderSource, "Loaded flow " ++ Text.quoted flow.info.name ++ " with " ++
    toString flow.nodes.length ++ " nodes"⟩

def wroteLine (path : String) : LogLine := ⟨.info, loaderSource, "Wrote flow to " ++ path⟩

def renamedTypeLines (types : Script.Registry) : List LogLine :=
  (types.filter fun t => t.name != t.base).map fun t =>
    ⟨.warning, generatorSource, "Result type name " ++ t.base ++ " is already taken, emitting " ++
      t.name⟩

def generatedLines (flow : Flow) : List LogLine :=
  let types := Script.typesOf flow
  renamedTypeLines types ++
    [⟨.info, generatorSource, "Generated Python for flow " ++ Text.quoted flow.info.name ++ ": " ++
      toString flow.nodes.length ++ " nodes, " ++ toString types.length ++ " result types"⟩]

/-- A rename of `old` to `wanted` that ended with `final`, and how many references it changed. -/
def renameLines (old wanted final : String) (references : Nat) : List LogLine :=
  if final = old then []
  else
    (if final = wanted then []
      else [⟨.info, integritySource, "Node id " ++ Text.quoted wanted ++
        " already taken, renamed " ++ Text.quoted old ++ " to " ++ Text.quoted final⟩]) ++
    [⟨.debug, integritySource, "Renamed " ++ old ++ " -> " ++ final ++ ", " ++
      toString references ++ " references rewritten"⟩]

end Dialogue.Command
