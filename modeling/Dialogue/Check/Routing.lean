import Dialogue.Document.Coercion
import Dialogue.Failure
import Dialogue.Flow.Reading
import Dialogue.Graph.Routes

/-!
# Checking the graph of a flow

Ids of nodes have to differ, names of functions within a node have to differ, and edges and routes
have to end at nodes. A second initial node is worth a warning. `exportable` lets through what has
no faults but warnings.
-/

namespace Dialogue.Check

/-- A set of scalars, in which alike ones are one. -/
abbrev Keys := List Scalar

def Keys.has (keys : Keys) (s : Scalar) : Bool := keys.any s.alike

/-- Whether a value, which has to be a scalar, is missing from a set. -/
def isMissing (keys : Keys) (d : Document) : Loose Bool := return !keys.has (← d.asKey)

/-- The keys that were met before, with their places. -/
def repeats (key : α → Loose Document) (seen : Keys) (place : Nat) :
    List α → Loose (List (Nat × Document))
  | [] => .ok []
  | x :: xs => do
    let d ← key x
    let k ← d.asKey
    let rest ← repeats key (k :: seen) (place + 1) xs
    .ok (if seen.has k then (place, d) :: rest else rest)

def nodePath (i : Nat) : String := "/nodes/" ++ toString i

def functionPath (i j : Nat) : String := nodePath i ++ "/data/functions/" ++ toString j

def nodeIdIssue (repeated : Nat × Document) : RouteIssue where
  path := nodePath repeated.1 ++ "/id"
  keyword := "uniqueNodeId"
  message := "Duplicate node id: " ++ repeated.2.display
  params := [("id", repeated.2)]
  nodeId := repeated.2

def functionNameIssue (i : Nat) (owner : Document) (repeated : Nat × Document) : RouteIssue where
  path := functionPath i repeated.1 ++ "/name"
  keyword := "uniqueFunctionName"
  message := "Duplicate function name in node " ++ owner.display ++ ": " ++ repeated.2.display
  params := [("name", repeated.2)]
  nodeId := owner

def functionNameIssues (node : Document × Nat) : Loose (List RouteIssue) := do
  let functions ← Graph.functionItems node.1
  let owner ← node.1.field "id"
  let found ← repeats (·.field "name") [] 0 functions
  .ok (found.map (functionNameIssue node.2 owner))

/-! ## Edges -/

/-- What is said of an edge one of whose ends is no node. -/
def edgeEndIssue (i : Nat) (field keyword title : String) (edge : Entries) : RouteIssue where
  path := "/edges/" ++ toString i ++ "/" ++ field
  keyword
  message := title ++ " not found: " ++ (edge.get field).display
  params := [(field, edge.get field)]
  edgeId := edge.get "id"

def edgeEndIssues (ids : Keys) (i : Nat) (field keyword title : String) (edge : Entries) :
    Loose (List RouteIssue) := do
  if ← isMissing ids (edge.get field) then .ok [edgeEndIssue i field keyword title edge] else .ok []

def edgeIssues (ids : Keys) (edge : Document × Nat) : Loose (List RouteIssue) := do
  let es ← edge.1.entries
  let sources ← edgeEndIssues ids edge.2 "source" "edgeSourceExists" "Edge source" es
  let targets ← edgeEndIssues ids edge.2 "target" "edgeTargetExists" "Edge target" es
  .ok (sources ++ targets)

/-! ## Routes -/

/-- A function, its place, and the node that it belongs to. -/
structure Place where
  path : String
  owner : Document
  function : Entries

def Place.params (p : Place) (target : Document) : List (String × Document) :=
  [("target", target), ("function", p.function.get "name")]

def targetIssue (p : Place) (target : Document) : RouteIssue where
  path := p.path ++ "/next_node_id"
  keyword := "nextNodeExists"
  message := "Function target not found: " ++ target.display
  params := p.params target
  nodeId := p.owner

def fallbackIssue (p : Place) (target : Document) : RouteIssue where
  path := p.path ++ "/decision/default_next_node_id"
  keyword := "decisionDefaultExists"
  message := "Decision default target not found: " ++ target.display
  params := p.params target
  nodeId := p.owner

def conditionIssue (p : Place) (i : Nat) (target : Document) : RouteIssue where
  path := p.path ++ "/decision/conditions/" ++ toString i ++ "/next_node_id"
  keyword := "conditionTargetExists"
  message := "Decision condition target not found: " ++ target.display
  params := p.params target ++ [("condition", .int i)]
  nodeId := p.owner

/-- The issue of a target, if it is missing. -/
def issueIfMissing (ids : Keys) (issue : Document → RouteIssue) (target : Document) :
    Loose (List RouteIssue) := do
  if ← isMissing ids target then .ok [issue target] else .ok []

def conditionIssues (ids : Keys) (p : Place) (condition : Document × Nat) :
    Loose (List RouteIssue) := do
  issueIfMissing ids (conditionIssue p condition.2) (← condition.1.field "next_node_id")

def decisionIssues (ids : Keys) (p : Place) (decision : Entries) : Loose (List RouteIssue) := do
  let fallback ← issueIfMissing ids (fallbackIssue p) (decision.get "default_next_node_id")
  let conditions ← (decision.get "conditions").elementsOrNone
  let branches ← conditions.zipIdx.mapM (conditionIssues ids p)
  .ok (fallback ++ branches.flatten)

/-- The targets of a function's decision, or else its own. -/
def functionIssues (ids : Keys) (p : Place) : Loose (List RouteIssue) := do
  let decision := p.function.get "decision"
  let target := p.function.get "next_node_id"
  if decision.isTrue then decisionIssues ids p (← decision.entries)
  else if target.isTrue then issueIfMissing ids (targetIssue p) target
  else .ok []

def nodeIssues (ids : Keys) (node : Document × Nat) : Loose (List RouteIssue) := do
  let owner ← node.1.field "id"
  let functions ← Graph.functionItems node.1
  let found ← functions.zipIdx.mapM fun f => do
    functionIssues ids ⟨functionPath node.2 f.2, owner, ← f.1.entries⟩
  .ok found.flatten

/-! ## Initial nodes -/

def isInitial (node : Document) : Loose Bool := do
  let role ← Role.derive (← node.field "data")
  .ok (role = .initial)

def initialIssue (first : Document) (extra : Document × Nat) : RouteIssue where
  path := nodePath extra.2
  keyword := "singleInitialNode"
  message := "More than one initial node: " ++ first.display ++ " and " ++ extra.1.display
  params := [("initial", first), ("id", extra.1)]
  nodeId := extra.1
  severity := .warning

def initialIssues (nodes : List Document) : Loose (List RouteIssue) := do
  let initial ← nodes.zipIdx.filterM fun n => isInitial n.1
  let ids ← initial.mapM fun n => return (← n.1.field "id", n.2)
  match ids with
  | [] => .ok []
  | first :: extra => .ok (extra.map (initialIssue first.1))

/-! ## The whole document -/

/-- Everything that is wrong with the graph of a flow document. -/
def routeIssues (flow : Document) : Loose (List RouteIssue) := do
  let es ← flow.entries
  let nodes ← (es.get "nodes").elementsOrNone
  let repeated ← repeats (·.field "id") [] 0 nodes
  let names ← nodes.zipIdx.mapM functionNameIssues
  let ids ← nodes.mapM fun n => do (← n.field "id").asKey
  let edges ← (← (es.get "edges").elementsOrNone).zipIdx.mapM (edgeIssues ids)
  let routes ← nodes.zipIdx.mapM (nodeIssues ids)
  let initial ← initialIssues nodes
  .ok (repeated.map nodeIdIssue ++ names.flatten ++ edges.flatten ++ routes.flatten ++ initial)

/-- The flow of a document that conforms to the format and whose graph is whole. -/
def exportable (d : Document) : Outcome Flow := do
  let flow ← Flow.ofDocument .use d
  let issues ← routeIssues d
  match issues.filter fun i => i.severity = .error with
  | [] => .ok flow
  | blocking => .error (.brokenGraph blocking)

/-! ## Broken elements -/

/-- Keys are put in order as texts or as numbers, but not both together. -/
def precedes (a b : Scalar) : Loose Bool :=
  match a.codes?, b.codes? with
  | some s, some t => .ok (s < t)
  | none, none =>
    match a.wholeValue?, b.wholeValue? with
    | some m, some n => .ok (m < n)
    | _, _ =>
      match Document.asFloat (.scalar a), Document.asFloat (.scalar b) with
      | .ok x, .ok y => .ok (x < y)
      | _, _ => .error .wrongKind
  | _, _ => .error .wrongKind

/-- Puts a key in its place; one alike to it that is there already takes its place. -/
def place (s : Scalar) : Keys → Loose Keys
  | [] => .ok [s]
  | t :: rest => do
    if s.alike t then .ok (t :: rest)
    else if ← precedes s t then .ok (s :: t :: rest)
    else return t :: (← place s rest)

def sorted (ds : List Document) : Loose Keys := do
  let keys ← (ds.filter Document.isTrue).mapM Document.asKey
  keys.foldlM (fun found s => place s found) []

/-- The ids of the nodes and of the edges that issues are about, in order. -/
def broken (issues : List RouteIssue) : Loose (Keys × Keys) := do
  let nodes ← sorted (issues.map (·.nodeId))
  let edges ← sorted (issues.map (·.edgeId))
  .ok (nodes, edges)

end Dialogue.Check
