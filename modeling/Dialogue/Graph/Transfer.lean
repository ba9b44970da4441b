import Dialogue.Flow.Role
import Dialogue.Flow.Schema
import Dialogue.Graph.Source

/-!
# Flows and graphs

`ofFlow` expands a flow document to a graph, `toFlow` gathers a graph into a flow document. The
document holds the routing: decision nodes and edges of the graph are made anew from the functions.
-/

namespace Dialogue.Graph

/-- Decision nodes are reconciled and edges derived; whether anything changed comes third. -/
def refresh (settings : Settings) (nodes : List Node) (edges : List Edge) :
    Loose (List Node × List Edge × Bool) := do
  let r ← reconcile settings nodes
  let (edgesChanged, edges) := reconcileEdges edges (← deriveEdges r.nodes)
  .ok (r.nodes, edges, r.changed || edgesChanged)

/-- A node of a flow document as one of a graph. -/
def nodeOfFlow (d : Document) : Loose Node := do
  let n ← Node.ofDocument d
  let role ← Role.derive (.map n.data)
  .ok { n with kind := role.name }

def nodesOfFlow (d : Document) : Loose (List Node) := do
  let es ← d.asMap
  (← (Entries.get es "nodes").elementsOrNone).mapM nodeOfFlow

def ofFlow (settings : Settings) (d : Document) : Loose (List Node × List Edge) := do
  let nodes := (← reconcile settings (← nodesOfFlow d)).nodes
  .ok (nodes, ← deriveEdges nodes)

/-! ## Gathering -/

/-- The position of the last decision node with an id. -/
def decisionPosition? (nodes : List Node) (id : String) : Option Position :=
  (nodes.reverse.find? fun n => n.isDecision && n.id = id).map (·.position)

/-- A function whose decision keeps the position of its decision node. -/
def settle (nodes : List Node) (owner : String) (function : Entries) : Entries :=
  match decisionPosition? nodes (decisionIdOf owner (function.get "name")) with
  | some p => placed p function
  | none => function

/-- The same for the function entries that are maps. -/
def settled (nodes : List Node) (owner : String) : Document → Document
  | .map es => .map (settle nodes owner es)
  | d => d

def settledData (nodes : List Node) (n : Node) : Loose Entries := do
  let _ ← (n.data.get "functions").elementsOrNone
  match n.data.get "functions" with
  | .list ds => .ok (n.data.put "functions" (.list (ds.map (settled nodes n.id))))
  | _ => .ok n.data

def flowNode (nodes : List Node) (n : Node) : Loose Document := do
  let data ← settledData nodes n
  let role ← Role.derive (.map data)
  .ok (.object [("id", .text n.id), ("type", .text role.name),
    ("position", n.position.document), ("data", .map data)])

/-- What a document carries that a graph knows nothing of. -/
def carriedKeys : List String := ["$schema", "$id", "context", "global_functions"]

def defaultMeta : Document := .object [("name", .text "Untitled"), ("version", .text "0.1.0")]

def carried (base : Entries) (flow : Entries) : Entries :=
  carriedKeys.foldl (fun flow key =>
    let d := base.get key
    if d.isNull then flow else flow.put key d) flow

/-- The fields that come before the nodes: those of the base document, if there is one. -/
def heading (base : Option Document) : Loose Entries :=
  match base with
  | none => .ok [(.text "meta", defaultMeta), (.text "$id", .text flowSchemaId)]
  | some d => do
    let es ← d.asMap
    .ok (carried es [(.text "meta", (Entries.get? es "meta").getD defaultMeta)])

/-- The flow document of a graph's nodes. Decision nodes are left out; their positions are kept by
the decisions that they stand for. -/
def toFlow (base : Option Document) (nodes : List Node) : Loose Document := do
  let flowNodes ← (nodes.filter fun n => !n.isDecision).mapM (flowNode nodes)
  let fields ← heading base
  let edges ← storedEdges flowNodes
  .ok (.map (fields ++ [(.text "nodes", .list flowNodes), (.text "edges", .list edges)]))

end Dialogue.Graph
