import Dialogue.Flow.Identifier
import Dialogue.Graph.Basic

/-!
# Routes as edges

Edges are never kept, they are derived from where the functions lead: straight to a target, or to
the function's decision and on from there. `Graph.reconcileEdges` compares them with the edges on a
canvas.
-/

namespace Dialogue.Graph

def decisionIdOf (owner : String) (name : Document) : String :=
  Identifier.decisionId owner name.display

def conditionLabel (condition : Entries) : String :=
  "result " ++ (condition.get "operator").display ++ " " ++ (condition.get "value").display

def conditionEdge (decisionId : String) (index : Nat) (condition : Document) : Loose Edge := do
  let es ← condition.entries
  let target := es.get "next_node_id"
  .ok {
    id := "edge-" ++ decisionId ++ "-cond-" ++ toString index ++ "-" ++ target.display
    source := .text decisionId
    target
    label := .text (conditionLabel es) }

def conditionEdges (decisionId : String) (conditions : List Document) : Loose (List Edge) :=
  conditions.zipIdx.mapM fun c => conditionEdge decisionId c.2 c.1

def fallbackEdge (decisionId : String) (target : Document) : Edge where
  id := "edge-" ++ decisionId ++ "-default-" ++ target.display
  source := .text decisionId
  target
  label := .text "default"

/-- From the owner to the decision, and from the decision to the targets of its conditions and to
its default. -/
def decisionEdges (owner name : Document) (decision : Entries) : Loose (List Edge) := do
  let id := decisionIdOf owner.display name
  let conditions ← (decision.get "conditions").elementsOrNone
  let branches ← conditionEdges id conditions
  .ok ({ id := "edge-" ++ owner.display ++ "-" ++ id, source := owner, target := .text id } ::
    branches ++ [fallbackEdge id (decision.get "default_next_node_id")])

def directEdge (owner name target : Document) : Edge where
  id := "func-" ++ owner.display ++ "-" ++ name.display ++ "-" ++ target.display
  source := owner
  target
  label := name

/-- Where a function leads; one without a name leads nowhere. -/
def functionEdges (owner : Document) (function : Entries) : Loose (List Edge) :=
  let name := function.get "name"
  if !name.isTrue then .ok []
  else
    match function.get "decision" with
    | .map decision => decisionEdges owner name decision
    | _ =>
      let target := function.get "next_node_id"
      .ok (if target.isTrue then [directEdge owner name target] else [])

def nodeEdges (n : Node) : Loose (List Edge) := do
  if n.isDecision then .ok []
  else return (← (← n.functions).mapM (functionEdges (.text n.id))).flatten

def deriveEdges (nodes : List Node) : Loose (List Edge) :=
  return (← nodes.mapM nodeEdges).flatten

/-! ## Edges of a flow document -/

/-- The function entries of a node of a document. -/
def functionItems (node : Document) : Loose (List Document) := do
  let data ← (← node.field "data").entriesOrNone
  (data.get "functions").elementsOrNone

/-- Stored edges are direct routes; a decision keeps its routes to itself. -/
def storedEdge? (node function : Document) : Loose (Option Document) := do
  let es ← function.entries
  let name := es.get "name"
  let target := es.get "next_node_id"
  if (es.get "decision").isNull && target.isTrue && name.isTrue then
    let some id := (← node.entries).get? "id" | .error .missingKey
    .ok (some (directEdge id name target).stored)
  else .ok none

def storedNodeEdges (node : Document) : Loose (List Document) := do
  return (← (← functionItems node).mapM (storedEdge? node)).filterMap id

/-- The edges that a flow document with these nodes stores. -/
def storedEdges (nodes : List Document) : Loose (List Document) :=
  return (← nodes.mapM storedNodeEdges).flatten

/-! ## Edges on a canvas -/

/-- The last edge with an id. -/
def edgeById? (edges : List Edge) (id : String) : Option Edge := edges.reverse.find? (·.id = id)

/-- The edges have the ids and the routes of the derived ones, in any order. -/
def agree (current derived : List Edge) : Bool :=
  current.length == derived.length &&
    current.all (fun e => derived.any (·.id = e.id)) &&
    derived.all fun e => (edgeById? current e.id).any (·.sameRoute e)

def reselect (current : List Edge) (e : Edge) : Edge :=
  { e with selected := (edgeById? current e.id).any (·.selected) }

/-- Whether the derived edges differ from the current ones, and the edges to show: the current ones
if not, else the derived ones, selected where an edge of that id was. -/
def reconcileEdges (current derived : List Edge) : Bool × List Edge :=
  if agree current derived then (false, current) else (true, derived.map (reselect current))

end Dialogue.Graph
