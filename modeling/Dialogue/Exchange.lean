import Dialogue.Failure
import Dialogue.Yaml.Reader

/-!
# The exchange format

Flow documents are exchanged as JSON; what is not JSON is read as YAML, for flows written by hand.
Only YAML gives values that are no documents. How it is read, and which documents its values count
as, is left to a reader.
-/

namespace Dialogue

/-- What reading flows leaves to others. -/
structure Reader where
  /-- The value of a text in YAML. -/
  yaml : String → Except Yaml.Fault Yaml.Value
  /-- The document that a value counts as where a flow asks for texts, numbers and lists. -/
  typed : Yaml.Value → Document

def Reader.standard : Reader := ⟨Yaml.read, Yaml.Value.typed⟩

namespace Exchange

def unreadable : Failure :=
  .invalidFlow [⟨"", "parse", "Document is neither JSON nor YAML"⟩] .use

def readYaml (r : Reader) (text : String) : Outcome Yaml.Value :=
  match r.yaml text with
  | .ok v => .ok v
  | .error .notYaml => .error unreadable
  | .error (.malformed m) => .error (.malformed m)

def readValue (r : Reader) (text : String) : Outcome Yaml.Value :=
  match Json.read text with
  | .ok d => .ok (.ofDocument d)
  | .error .notJson => readYaml r text
  | .error .hugeNumber => .error (.malformed .badValue)

/-- The document that JSON has for a value. -/
def form (v : Yaml.Value) : Outcome Document :=
  match v.document? with
  | some d => .ok d
  | none => .error (.malformed .wrongKind)

/-- The document of a text whose value has one in JSON. -/
def read (text : String) : Outcome Document := do form (← readValue .standard text)

end Exchange
end Dialogue
