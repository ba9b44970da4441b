import Dialogue.Proofs.Graph.Placement

/-!
# Gathering a graph

A graph whose regular nodes are those of a flow is gathered into a document with the fields that a
graph knows nothing of, these nodes, and their direct edges. Each decision stands where its decision
node stands.
-/

namespace Dialogue

open Document (ofOption listOf)
open Entries (ofFields)

/-- The node as its graph has it: with its role derived and its position without signed zeros. -/
def FlowNode.drawn (n : FlowNode) : FlowNode := { n.withRole with position := n.position.unsigned }

/-! ## Decisions where their nodes stand -/

/-- The function with its decision at the place that is kept for its id, if there is one. -/
def NodeFunction.settledBy (place : String → Option Position) (owner : String) (f : NodeFunction) :
    NodeFunction :=
  match place (Identifier.decisionId owner f.name) with
  | some p => { f with decision := f.decision.map fun d => { d with position := some p } }
  | none => f

def NodeData.settledBy (place : String → Option Position) (owner : String) (d : NodeData) :
    NodeData :=
  { d with functions := d.functions.map (·.map (·.settledBy place owner)) }

def FlowNode.settledBy (place : String → Option Position) (n : FlowNode) : FlowNode :=
  { n.drawn with data := n.data.settledBy place n.id }

section

variable (place : String → Option Position)

@[simp] theorem NodeFunction.name_settledBy (owner : String) (f : NodeFunction) :
    (f.settledBy place owner).name = f.name := by
  unfold settledBy
  split <;> rfl

@[simp] theorem NodeData.functionList_settledBy (owner : String) (d : NodeData) :
    (d.settledBy place owner).functionList = d.functionList.map (·.settledBy place owner) := by
  cases h : d.functions <;> simp [functionList, NodeData.settledBy, h]

theorem FlowNode.Writable.settledBy {n : FlowNode} (writable : n.Writable) :
    (n.settledBy place).Writable where
  named g called := by
    rw [show (n.settledBy place).data = n.data.settledBy place n.id from rfl,
      NodeData.functionList_settledBy] at called
    obtain ⟨f, member, rfl⟩ := List.mem_map.1 called
    rw [NodeFunction.name_settledBy]
    exact writable.named f member
  others := writable.others

end

namespace Graph

/-- Placing a written decision is writing the placed one. -/
theorem placed_entries (p : Position) (f : NodeFunction) :
    placed p f.entries = ({ f with
      decision := f.decision.map fun d => { d with position := some p } } : NodeFunction).entries := by
  cases h : f.decision with
  | none =>
    have same : ({ f with decision := none } : NodeFunction) = f := by rw [← h]
    simp [placed, h, ofOption, same]
  | some d =>
    simp only [Option.map_some]
    rw [← f.entries_put_decision, Decision.document_eq, ← d.entries_put_position]
    simp [placed, h, ofOption, Decision.document_eq]

variable {nodes : List Node}

/-- Settling a written function is writing the settled one. -/
theorem settle_entries (owner : String) (f : NodeFunction) :
    settle nodes owner f.entries = (f.settledBy (decisionPosition? nodes) owner).entries := by
  simp only [settle, NodeFunction.get_name, decisionIdOf_text, NodeFunction.settledBy]
  split <;> simp [*, placed_entries]

theorem settledData_ofNode {n : FlowNode} (writable : n.Writable) :
    settledData nodes (Node.ofNode n) =
      .ok (n.data.settledBy (decisionPosition? nodes) n.id).entries := by
  have stands : n.data.entries.get "functions" =
      ofOption (n.data.functions.map (listOf NodeFunction.document)) :=
    NodeData.get_functions writable.others
  have id : (Node.ofNode n).id = n.id := rfl
  have data : (Node.ofNode n).data = n.data.entries := rfl
  simp only [settledData, id, data, stands]
  cases h : n.data.functions with
  | none =>
    have same : n.data.settledBy (decisionPosition? nodes) n.id = n.data := by
      rw [NodeData.settledBy, h, Option.map_none, ← h]
    rw [same]
    rfl
  | some fs =>
    have each : (fs.map NodeFunction.document).map (settled nodes n.id) =
        (fs.map (·.settledBy (decisionPosition? nodes) n.id)).map NodeFunction.document := by
      simp [NodeFunction.document_eq, settled, settle_entries]
    simp only [Option.map_some, ofOption, Option.getD_some, listOf, Document.elementsOrNone_list,
      ok_bind, each]
    rw [show Document.list _ = listOf NodeFunction.document _ from rfl,
      n.data.entries_put_functions fs _ h]
    simp [NodeData.settledBy, h]

/-- A drawn node is gathered as its document, settled. -/
theorem flowNode_ofNode {n : FlowNode} (writable : n.Writable) :
    flowNode nodes (Node.ofNode n) = .ok (n.settledBy (decisionPosition? nodes)).document := by
  have role := (NodeData.shownBy_entries
    (d := n.data.settledBy (decisionPosition? nodes) n.id) writable.others).role
  simp only [flowNode, settledData_ofNode writable, ok_bind, role]
  rfl

/-- The edges stored are those of the direct routes. -/
theorem storedEdges_documents {ns : List FlowNode} (writable : ∀ n ∈ ns, n.Writable) :
    storedEdges (ns.map FlowNode.document) =
      .ok ((ns.flatMap FlowNode.directEdges).map StoredEdge.document) :=
  storedEdges_of_shown (FlowNode.shownIn_documents writable) fun n member =>
    (writable n member).named

end Graph

/-! ## The document of a graph -/

namespace Flow

/-- The fields that a graph knows nothing of, in the order in which they are carried over. -/
def headingFields (f : Flow) : List (String × Option Document) := [
  ("meta", some f.info.document),
  ("$schema", f.schemaUri.map .text),
  ("$id", f.schemaId.map .text),
  ("context", f.context.map Document.object),
  ("global_functions", f.globalFunctions.map (listOf Signature.document))]

/-- The fields of a document in the order in which it is gathered from a graph. -/
def gatheredFields (f : Flow) : List (String × Option Document) :=
  f.headingFields ++ [
    ("nodes", some (listOf FlowNode.document f.nodes)),
    ("edges", some (listOf StoredEdge.document f.edges))]

def gathered (f : Flow) : Document := .map (ofFields f.gatheredFields)

/-- The flow with other nodes, and with their direct edges. -/
def withNodes (f : Flow) (ns : List FlowNode) : Flow :=
  { f with nodes := ns, edges := ns.flatMap FlowNode.directEdges }

/-- The entries hold what a graph knows nothing of, and the nodes. -/
structure HeldBy (es : Entries) (f : Flow) : Prop where
  info : es.get? "meta" = some f.info.document
  schemaUri : es.get "$schema" = ofOption (f.schemaUri.map .text)
  schemaId : es.get "$id" = ofOption (f.schemaId.map .text)
  context : es.get "context" = ofOption (f.context.map Document.object)
  globalFunctions :
    es.get "global_functions" = ofOption (f.globalFunctions.map (listOf Signature.document))
  nodes : es.get "nodes" = listOf FlowNode.document f.nodes

theorem heldBy_entries (f : Flow) : f.HeldBy f.entries := by
  constructor <;> simp [entries, fields, Entries.get, ofOption]

/-- What is gathered holds what the flow holds beside its nodes and edges. -/
theorem heldBy_gathered (f : Flow) : f.HeldBy (ofFields f.gatheredFields) := by
  constructor <;> simp [gatheredFields, headingFields, Entries.get, ofOption]

/-- So the heading is taken over from it. -/
theorem heading_of_heldBy {es : Entries} {f : Flow} (held : f.HeldBy es) :
    Graph.heading (some (.map es)) = .ok (ofFields f.headingFields) := by
  simp only [Graph.heading, Document.asMap, ok_bind, held.info, Graph.carried, Graph.carriedKeys,
    List.foldl_cons, List.foldl_nil, held.schemaUri, held.schemaId, held.context,
    held.globalFunctions, headingFields]
  cases f.schemaUri <;> cases f.schemaId <;> cases f.context <;> cases f.globalFunctions <;> rfl

/-- Gathering gives the flow with the nodes of the graph, each decision where its node stands. -/
theorem toFlow_of_regular {es : Entries} {f : Flow} {ns : List FlowNode} {nodes : List Graph.Node}
    (held : f.HeldBy es) (writable : ∀ n ∈ ns, n.Writable)
    (own : Graph.regular nodes = ns.map Graph.Node.ofNode) :
    Graph.toFlow (some (.map es)) nodes =
      .ok (f.withNodes (ns.map (·.settledBy (Graph.decisionPosition? nodes)))).gathered := by
  have settled : ∀ m ∈ ns.map (·.settledBy (Graph.decisionPosition? nodes)), m.Writable := by
    rw [List.forall_mem_map]
    exact fun n member => (writable n member).settledBy _
  have read : (ns.map Graph.Node.ofNode).mapM (Graph.flowNode nodes) =
      .ok ((ns.map (·.settledBy (Graph.decisionPosition? nodes))).map FlowNode.document) := by
    rw [List.map_map]
    exact mapM_map_eq_map fun n owner => Graph.flowNode_ofNode (writable n owner)
  have edges := Graph.storedEdges_documents settled
  rw [Graph.regular] at own
  simp only [Graph.toFlow, own, read, ok_bind, heading_of_heldBy held, edges]
  rw [gathered, gatheredFields, Entries.ofFields_append]
  rfl

end Flow
end Dialogue
