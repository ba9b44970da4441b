import Dialogue.Graph.Transfer
import Dialogue.Proofs.Flow.Writing
import Dialogue.Proofs.Graph.Decisions
import Dialogue.Proofs.Graph.Routes

/-!
# The graph of a written flow

A written flow expands to one graph node for each of its nodes, with its data, and then one decision
node for each of its decisions. Zeros among the positions of the nodes lose their sign.
-/

namespace Dialogue

open Document (ofOption listOf)

/-- The float, but for a negative zero, which is zero. -/
def Number.unsigned (x : Float) : Float := if x != 0.0 then x else 0.0

def Position.unsigned (p : Position) : Position := ⟨Number.unsigned p.x, Number.unsigned p.y⟩

/-- A decision of a flow, with the function and the node that it belongs to. -/
structure Deciding where
  node : FlowNode
  function : NodeFunction
  decision : Decision

def FlowNode.decidings (n : FlowNode) : List Deciding :=
  n.data.functionList.filterMap fun f => f.decision.map fun d => ⟨n, f, d⟩

namespace Graph

/-- A node of a flow on a canvas. -/
def Node.ofNode (n : FlowNode) : Node where
  id := n.id
  kind := n.data.role.name
  position := n.position.unsigned
  data := n.data.entries

theorem role_ne_empty (r : Role) : r.name ≠ "" := by
  cases r <;> decide

@[simp] theorem isDecision_ofNode (n : FlowNode) : (Node.ofNode n).isDecision = false :=
  isDecision_of_role n.data.role rfl

/-- A number is drawn as it is, but for the sign of zero. -/
theorem asFloatOrZero_float (x : Float) :
    (Document.float x).asFloatOrZero = .ok (Number.unsigned x) := by
  cases h : (x != 0.0) <;>
    simp [Document.asFloatOrZero, Document.isTrue, Document.asFloat, Number.unsigned, h]

theorem nodeOfFlow_object (id : String) (kind : Role) (p : Position) {data : Entries} {role : Role}
    (derived : Role.derive (.map data) = .ok role) :
    nodeOfFlow (.object [("id", .text id), ("type", .text kind.name), ("position", p.document),
        ("data", .map data)]) =
      .ok { id, kind := role.name, position := p.unsigned, data } := by
  have read : Node.ofDocument (.object [("id", .text id), ("type", .text kind.name),
      ("position", p.document), ("data", .map data)]) =
      .ok { id, kind := kind.name, position := p.unsigned, data } := by
    simp [Node.ofDocument, Document.object, Document.entries, Entries.get, Node.positionOf,
      Position.document, asFloatOrZero_float, role_ne_empty, Position.unsigned, Document.isTrue]
  simp only [nodeOfFlow, read, ok_bind, derived]

/-- A lawful node can be drawn as it was written. -/
theorem nodeOfFlow_document {n : FlowNode} (lawful : n.Lawful) :
    nodeOfFlow n.document = .ok (Node.ofNode n) := by
  have role : Role.derive (.map n.data.entries) = .ok n.data.role :=
    (NodeData.shownBy_entries lawful.others).role
  rw [FlowNode.document, NodeData.document_eq]
  exact nodeOfFlow_object n.id n.role n.position role

theorem nodesOfFlow_of_get {es : Entries} {ns : List FlowNode}
    (stands : es.get "nodes" = listOf FlowNode.document ns) (lawful : ∀ n ∈ ns, n.Lawful) :
    nodesOfFlow (.map es) = .ok (ns.map Node.ofNode) := by
  have each : (ns.map FlowNode.document).mapM nodeOfFlow = .ok (ns.map Node.ofNode) :=
    mapM_map_eq_map fun n member => nodeOfFlow_document (lawful n member)
  simp [nodesOfFlow, Document.asMap, stands, listOf, each]

/-- The drawn node has the functions of the node. -/
theorem functions_ofNode {n : FlowNode} (lawful : n.Lawful) :
    (Node.ofNode n).functions = .ok (n.data.functionList.map NodeFunction.entries) := by
  have maps (fs : List NodeFunction) :
      Node.mapsOf (fs.map NodeFunction.document) = fs.map NodeFunction.entries := by
    simp [Node.mapsOf, List.filterMap_map, NodeFunction.document_eq, Function.comp_def]
  have stands : (Node.ofNode n).data.get "functions" =
      ofOption (n.data.functions.map (listOf NodeFunction.document)) :=
    NodeData.get_functions lawful.others
  simp only [Node.functions, stands, NodeData.functionList]
  cases n.data.functions with
  | none => rfl
  | some fs => simp [ofOption, listOf, maps]

end Graph

/-! ## Decisions -/

namespace Deciding

open Dialogue.Graph (Node Owned)

variable (settings : Settings) (d : Deciding)

def id : String := Identifier.decisionId d.node.id d.function.name

def owned : Owned := ⟨Node.ofNode d.node, d.function.entries, d.decision.entries⟩

/-- What the decision node shows. -/
def summary : Entries := [
  (.text "label", .text d.function.name),
  (.text "action", .text d.decision.action),
  (.text "condition_count", .int d.decision.conditions.length),
  (.text "source_node_id", .text d.node.id),
  (.text "function_name", .text d.function.name)]

/-- Where the decision node stands. -/
def position : Position :=
  d.decision.position.getD (Owned.below (Node.ofNode d.node) settings)

def graphNode : Node where
  id := d.id
  kind := Node.decisionKind
  position := d.position settings
  data := d.summary

@[simp] theorem id_owned : d.owned.id = d.id := by
  simp [owned, Owned.id, Owned.name, id, Node.ofNode]

@[simp] theorem id_graphNode : (d.graphNode settings).id = d.id := rfl

@[simp] theorem isDecision_graphNode : (d.graphNode settings).isDecision := rfl

/-- The decision of a function is drawn as its node. -/
theorem node_owned : d.owned.node settings = .ok (d.graphNode settings) := by
  have summary : d.owned.summary = .ok d.summary := by
    simp [Owned.summary, owned, Owned.name, Deciding.summary, Document.listOf, Node.ofNode]
  have position : d.owned.position settings = .ok (d.position settings) := by
    simp only [Owned.position, owned, Decision.get_position, Deciding.position]
    cases d.decision.position with
    | none => rfl
    | some p => rfl
  simp only [Owned.node, position, summary, ok_bind, id_owned, graphNode]

end Deciding

namespace Graph

/-- A drawn node owns the decisions of its functions. -/
theorem ownedBy_ofNode {n : FlowNode} (lawful : n.Lawful) :
    ownedBy (Node.ofNode n) = .ok (n.decidings.map Deciding.owned) := by
  simp only [ownedBy, isDecision_ofNode, Bool.false_eq_true, if_false, functions_ofNode lawful,
    ok_bind, List.filterMap_map, FlowNode.decidings, List.map_filterMap]
  refine congrArg Except.ok (List.filterMap_congr fun f member => ?_)
  have named := Identifier.ne_empty_of_isIdentifier (lawful.names f member)
  cases h : f.decision <;>
    simp [h, ofOption, Document.isTrue, named, Decision.document_eq, Deciding.owned]

theorem ids_decidings (n : FlowNode) : n.decidings.map Deciding.id =
    ((n.data.functionList.filter (·.decision.isSome)).map (·.name)).map
      (Identifier.decisionId n.id) := by
  rw [FlowNode.decidings]
  induction n.data.functionList with
  | nil => rfl
  | cons f fs ih => cases h : f.decision <;> simp_all [Deciding.id]

/-- Ids of decision nodes differ where the ids of nodes and the names of their functions do. -/
theorem nodup_ids_decidings {ns : List FlowNode} (lawful : ∀ n ∈ ns, n.Lawful)
    (ids : (ns.map (·.id)).Nodup) (names : ∀ n ∈ ns, (n.data.functionList.map (·.name)).Nodup) :
    ((ns.flatMap FlowNode.decidings).map Deciding.id).Nodup := by
  have free (n : FlowNode) (member : n ∈ ns) : Identifier.HyphenFree n.id :=
    Identifier.hyphenFree_of_isIdentifier (lawful n member).id
  rw [List.map_flatMap, List.nodup_flatMap]
  constructor
  · intro n member
    rw [ids_decidings]
    refine ((names n member).sublist (List.filter_sublist.map _)).map_on fun f _ g _ same => ?_
    exact (Identifier.decisionId_inj (free n member) (free n member) same).2
  · refine (List.pairwise_map.1 ids).imp_of_mem fun {n m} hn hm apart => ?_
    intro id left right
    simp only [ids_decidings] at left right
    obtain ⟨f, -, rfl⟩ := List.mem_map.1 left
    obtain ⟨g, -, same⟩ := List.mem_map.1 right
    exact apart (Identifier.decisionId_inj (free m hm) (free n hn) same).1.symm

/-- All decisions of the flow are expected. -/
theorem expected_ofNodes {ns : List FlowNode} (lawful : ∀ n ∈ ns, n.Lawful) :
    expected (ns.map Node.ofNode) =
      .ok (((ns.flatMap FlowNode.decidings).map Deciding.owned).foldl putOwned []) := by
  have each : (ns.map Node.ofNode).mapM ownedBy =
      .ok (ns.map fun n => n.decidings.map Deciding.owned) :=
    mapM_map_eq_map fun n member => ownedBy_ofNode (lawful n member)
  simp [expected, each, List.flatMap_def, List.map_flatten, Function.comp_def]

/-! ## The whole graph -/

theorem exists_functionEdges {n : FlowNode} (lawful : n.Lawful) {f : NodeFunction}
    (member : f ∈ n.data.functionList) : ∃ out, functionEdges (.text n.id) f.entries = .ok out :=
  have named := Identifier.ne_empty_of_isIdentifier (lawful.names f member)
  (functionEdges_of_shownBy n.id f.shownBy_entries named).elim fun _ h => ⟨_, h.1⟩

/-- Edges can be derived from the nodes of a written flow and any decision nodes. -/
theorem exists_deriveEdges {ns : List FlowNode} {decisions : List Node}
    (lawful : ∀ n ∈ ns, n.Lawful) (managed : ∀ d ∈ decisions, d.isDecision) :
    ∃ edges, deriveEdges (ns.map Node.ofNode ++ decisions) = .ok edges := by
  have each : ∀ n ∈ ns.map Node.ofNode ++ decisions, ∃ out, nodeEdges n = .ok out := by
    intro n member
    rcases List.mem_append.1 member with member | member
    · obtain ⟨n, there, rfl⟩ := List.mem_map.1 member
      have functions : ∀ es ∈ n.data.functionList.map NodeFunction.entries,
          ∃ out, functionEdges (.text n.id) es = .ok out := by
        intro es member
        obtain ⟨f, here, rfl⟩ := List.mem_map.1 member
        exact exists_functionEdges (lawful n there) here
      obtain ⟨outs, run⟩ := exists_mapM functions
      have id : (Node.ofNode n).id = n.id := rfl
      exact ⟨outs.flatten, by simp [nodeEdges, functions_ofNode (lawful n there), id, run]⟩
    · exact ⟨[], by simp [nodeEdges, managed n member]⟩
  obtain ⟨outs, run⟩ := exists_mapM each
  exact ⟨outs.flatten, by simp only [deriveEdges, run, ok_bind, pure_eq_ok]⟩

/-- A document with the nodes of a flow always expands to a graph. -/
theorem exists_ofFlow (settings : Settings) {es : Entries} {ns : List FlowNode}
    (stands : es.get "nodes" = listOf FlowNode.document ns) (lawful : ∀ n ∈ ns, n.Lawful) :
    ∃ r edges, reconcile settings (ns.map Node.ofNode) = .ok r ∧
      ofFlow settings (.map es) = .ok (r.nodes, edges) ∧ deriveEdges r.nodes = .ok edges := by
  have builds : ∀ o ∈ ((ns.flatMap FlowNode.decidings).map Deciding.owned).foldl putOwned [],
      ∃ n, o.node settings = .ok n := by
    intro o member
    have among := ((foldl_putOwned [] _ .nil).2.1 o member).resolve_left nofun
    obtain ⟨d, -, rfl⟩ := List.mem_map.1 among
    exact ⟨_, d.node_owned settings⟩
  obtain ⟨built, builds⟩ := exists_mapM builds
  obtain ⟨r, reconciled, nodes⟩ :=
    reconcile_of_regular (by simp) (expected_ofNodes lawful) builds
  have managed : ∀ d ∈ built, d.isDecision := by
    intro d member
    obtain ⟨o, -, here⟩ := exists_of_mem_right (mapM_eq_ok.1 builds) member
    exact (node_eq_ok here).2.1
  obtain ⟨edges, derived⟩ := exists_deriveEdges lawful managed
  refine ⟨r, edges, reconciled, ?_, nodes ▸ derived⟩
  simp only [ofFlow, nodesOfFlow_of_get stands lawful, reconciled, ok_bind, nodes, derived]

/-- The nodes of a flow's graph, if no two of its decisions have the same id. -/
def expansion (settings : Settings) (ns : List FlowNode) : List Node :=
  ns.map Node.ofNode ++ (ns.flatMap FlowNode.decidings).map (Deciding.graphNode settings)

/-- Reconciling the drawn nodes adds the decision nodes and changes nothing else. -/
theorem reconcile_ofNodes (settings : Settings) {ns : List FlowNode} (lawful : ∀ n ∈ ns, n.Lawful)
    (ids : (ns.map (·.id)).Nodup) (names : ∀ n ∈ ns, (n.data.functionList.map (·.name)).Nodup) :
    ∃ r, reconcile settings (ns.map Node.ofNode) = .ok r ∧ r.nodes = expansion settings ns := by
  have distinct :
      (([] ++ (ns.flatMap FlowNode.decidings).map Deciding.owned).map Owned.id).Nodup := by
    simpa [Function.comp_def] using nodup_ids_decidings lawful ids names
  have expects : expected (ns.map Node.ofNode) =
      .ok ((ns.flatMap FlowNode.decidings).map Deciding.owned) := by
    rw [expected_ofNodes lawful, foldl_putOwned_of_nodup distinct, List.nil_append]
  have builds : ((ns.flatMap FlowNode.decidings).map Deciding.owned).mapM (·.node settings) =
      .ok ((ns.flatMap FlowNode.decidings).map (Deciding.graphNode settings)) :=
    mapM_map_eq_map fun d _ => d.node_owned settings
  exact reconcile_of_regular (by simp) expects builds

theorem ofFlow_of_get (settings : Settings) {es : Entries} {ns : List FlowNode}
    (stands : es.get "nodes" = listOf FlowNode.document ns) (lawful : ∀ n ∈ ns, n.Lawful)
    (ids : (ns.map (·.id)).Nodup) (names : ∀ n ∈ ns, (n.data.functionList.map (·.name)).Nodup) :
    ∃ edges, ofFlow settings (.map es) = .ok (expansion settings ns, edges) ∧
      deriveEdges (expansion settings ns) = .ok edges := by
  obtain ⟨r, edges, reconciled, expands, derived⟩ := exists_ofFlow settings stands lawful
  obtain ⟨r', reconciled', nodes⟩ := reconcile_ofNodes settings lawful ids names
  obtain rfl := Except.ok.inj (reconciled.symm.trans reconciled')
  rw [nodes] at expands derived
  exact ⟨edges, expands, derived⟩

/-- A stored role has no say in how a flow is drawn. -/
theorem expansion_withRole (settings : Settings) (ns : List FlowNode) :
    expansion settings (ns.map FlowNode.withRole) = expansion settings ns := by
  have decidings (n : FlowNode) : n.withRole.decidings.map (Deciding.graphNode settings) =
      n.decidings.map (Deciding.graphNode settings) := by
    simp only [FlowNode.decidings, List.map_filterMap, Option.map_map]
    rfl
  simp only [expansion, List.map_flatMap, List.flatMap_map, decidings, List.map_map]
  rfl

/-- The graph of a normalized flow has the nodes that the flow itself has. -/
theorem ofFlow_normalize (settings : Settings) {f : Flow} (lawful : f.Lawful) (ids : f.ids.Nodup)
    (names : ∀ n ∈ f.nodes, (n.data.functionList.map (·.name)).Nodup) :
    ∃ edges, ofFlow settings f.normalize.document = .ok (expansion settings f.nodes, edges) ∧
      deriveEdges (expansion settings f.nodes) = .ok edges := by
  rw [← expansion_withRole, Flow.document_eq]
  exact ofFlow_of_get settings (Flow.get_nodes _) lawful.normalize.nodes (by rwa [List.map_map])
    (Flow.names_normalize names)

/-- Every node of the flow is drawn. -/
theorem exists_node_of_mem_ids (settings : Settings) {f : Flow} {id : String}
    (member : id ∈ f.ids) :
    ∃ m ∈ expansion settings f.nodes, m.id = id := by
  obtain ⟨n, there, rfl⟩ := List.mem_map.1 member
  exact ⟨Node.ofNode n, List.mem_append_left _ (List.mem_map_of_mem there), rfl⟩

/-- So is every decision. -/
theorem exists_node_of_decision (settings : Settings) {ns : List FlowNode} {n : FlowNode}
    {f : NodeFunction} (owner : n ∈ ns) (member : f ∈ n.data.functionList)
    (decided : f.decision.isSome) :
    ∃ m ∈ expansion settings ns, m.id = Identifier.decisionId n.id f.name := by
  obtain ⟨d, some⟩ := Option.isSome_iff_exists.1 decided
  have there : ⟨n, f, d⟩ ∈ ns.flatMap FlowNode.decidings :=
    List.mem_flatMap.2 ⟨n, owner, List.mem_filterMap.2 ⟨f, member, by simp [some]⟩⟩
  exact ⟨_, List.mem_append_right _ (List.mem_map_of_mem there), rfl⟩

/-- Nothing else is drawn. -/
theorem mem_expansion {settings : Settings} {ns : List FlowNode} {m : Node}
    (member : m ∈ expansion settings ns) (notDecision : m.isDecision = false) :
    ∃ n ∈ ns, m = Node.ofNode n := by
  rcases List.mem_append.1 member with member | member
  · obtain ⟨n, there, rfl⟩ := List.mem_map.1 member
    exact ⟨n, there, rfl⟩
  · obtain ⟨d, -, rfl⟩ := List.mem_map.1 member
    cases notDecision

end Graph
end Dialogue
