import Dialogue.Document.Coercion
import Dialogue.Document.Display
import Dialogue.Flow.Basic

/-!
# Graphs

A graph is what a canvas shows and edits: nodes with loose data, and edges drawn from the functions
in those data. Beside the nodes of the flow it has a node for every decision.
-/

namespace Dialogue.Graph

structure Node where
  id : String
  kind : String
  position : Position
  data : Entries
  selected : Bool := false

/-- Ends and label of an edge are as loose as the data that they come from. -/
structure Edge where
  id : String
  source : Document
  target : Document
  label : Document := .null
  selected : Bool := false

namespace Node

def decisionKind : String := "decision"

def isDecision (n : Node) : Bool := n.kind = decisionKind

/-- The function entries that are maps. -/
def mapsOf (ds : List Document) : List Entries :=
  ds.filterMap fun d => match d with
    | .map es => some es
    | _ => none

def functions (n : Node) : Loose (List Entries) :=
  return mapsOf (← (Entries.get n.data "functions").elementsOrNone)

def positionOf : Document → Loose Position
  | .map es => do
    let x ← (Entries.get es "x").asFloatOrZero
    let y ← (Entries.get es "y").asFloatOrZero
    .ok ⟨x, y⟩
  | _ => .ok ⟨0.0, 0.0⟩

/-- A node from what a canvas sends; only the id has to be there. -/
def ofDocument (d : Document) : Loose Node := do
  let es ← d.entries
  let some id := es.get? "id" | .error .missingKey
  let kind := es.get "type"
  let position ← positionOf (es.get "position")
  .ok {
    id := id.display
    kind := if kind.isTrue then kind.display else Role.plain.name
    position
    data := match es.get "data" with
      | .map data => data
      | _ => []
    selected := (es.get "selected").isTrue }

end Node

namespace Edge

def ofDocument (d : Document) : Loose Edge := do
  let es ← d.entries
  let some id := es.get? "id" | .error .missingKey
  let some source := es.get? "source" | .error .missingKey
  let some target := es.get? "target" | .error .missingKey
  .ok {
    id := id.display
    source := .text source.display
    target := .text target.display
    label := es.get "label"
    selected := (es.get "selected").isTrue }

/-- The edge as a flow document stores it. -/
def stored (e : Edge) : Document :=
  .object ([("id", .text e.id), ("source", e.source), ("target", e.target)] ++
    if e.label.isNull then [] else [("label", e.label)])

def sameRoute (a b : Edge) : Bool :=
  a.source.alike b.source && a.target.alike b.target && a.label.alike b.label

end Edge
end Dialogue.Graph
