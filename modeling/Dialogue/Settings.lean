import Dialogue.Flow.Basic
import Dialogue.Number.Reader

/-!
# Settings

What the graph, the identifiers and the generated module leave to the user, and how settings are
read from named variables. A variable that gives no usable value leaves the default in place.
-/

namespace Dialogue

structure Settings where
  /-- Where a new decision node lies, seen from its owner. -/
  decisionOffset : Position := ⟨0.0, 150.0⟩
  /-- Where a duplicate lies, seen from its source. -/
  duplicateOffset : Position := ⟨100.0, 20.0⟩
  /-- How many numeric suffixes are tried for an id. -/
  suffixAttempts : Int := 1000
  /-- The module that a generated module imports its host's types from. -/
  hostModule : String := "pipecat_flows"

namespace Settings

/-- Values of variables by name. -/
abbrev Variables := List (String × String)

/-- A value without blanks around; blank values count as absent. -/
def value? (vars : Variables) (name : String) : Option (List Char) :=
  match (vars.lookup name).map fun s => Text.strip s.toList with
  | none | some [] => none
  | some cs => some cs

def float (vars : Variables) (name : String) (default : Float) : Float :=
  ((value? vars name).bind Number.floatOfText?).getD default

def wholeFrom (least : Int) (vars : Variables) (name : String) (default : Int) : Int :=
  match (value? vars name).bind Number.intOfText? with
  | some n => if least ≤ n then n else default
  | none => default

def text (vars : Variables) (name : String) (default : String) : String :=
  ((value? vars name).map String.ofList).getD default

def offset (vars : Variables) (name : String) (default : Position) : Position :=
  ⟨float vars (name ++ "_X") default.x, float vars (name ++ "_Y") default.y⟩

def ofVariables (vars : Variables) : Settings :=
  let default : Settings := {}
  { decisionOffset := offset vars "FLOWSMITH_DECISION_OFFSET" default.decisionOffset
    duplicateOffset := offset vars "FLOWSMITH_DUPLICATE_OFFSET" default.duplicateOffset
    suffixAttempts :=
      wholeFrom 1 vars "FLOWSMITH_MAX_SUFFIX_ATTEMPTS" default.suffixAttempts
    hostModule := text vars "FLOWSMITH_HOST_MODULE" default.hostModule }

end Settings
end Dialogue
