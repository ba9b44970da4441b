import Dialogue.Proofs.Document.Same
import Dialogue.Proofs.Graph.Gathering

/-!
# From a flow to its graph and back

A normalized flow whose ids and names differ comes back from its graph with every decision placed
and all else as it was. The fields of the document come in another order, and positions may have
lost the sign of a zero. A second time nothing changes.
-/

namespace Dialogue

open Document (ofOption listOf)
open Entries (ofFields)

namespace Graph

variable {settings : Settings} {ns : List FlowNode}

/-- The decision node of a decision is found by its id. -/
theorem decisionPosition?_of_mem (settings : Settings)
    (distinct : ((ns.flatMap FlowNode.decidings).map Deciding.id).Nodup)
    {x : Deciding} (member : x ∈ ns.flatMap FlowNode.decidings) :
    decisionPosition? (expansion settings ns) x.id = some (x.position settings) := by
  have found : (expansion settings ns).reverse.find? (fun n => n.isDecision && n.id = x.id) =
      some (x.graphNode settings) := by
    -- Regular nodes are passed over, and the ids of the decision nodes differ.
    refine find?_of_unique ?_ (by simp) fun m there holds => ?_
    · rw [List.mem_reverse]
      exact List.mem_append_right _ (List.mem_map_of_mem member)
    · obtain ⟨decision, id⟩ : m.isDecision ∧ m.id = x.id := by simpa using holds
      rcases List.mem_append.1 (List.mem_reverse.1 there) with there | there
      · obtain ⟨n, -, rfl⟩ := List.mem_map.1 there
        simp at decision
      · obtain ⟨y, among, rfl⟩ := List.mem_map.1 there
        rw [List.inj_on_of_nodup_map distinct among member id]
  rw [decisionPosition?, found]
  rfl

/-- A decision is drawn at its position, or below its node. -/
theorem position_eq (n : FlowNode) (f : NodeFunction) (d : Decision) :
    Deciding.position settings ⟨n, f, d⟩ = d.position.getD (n.drawn.below settings) := by
  simp only [Deciding.position, Owned.below, Node.ofNode, FlowNode.below, FlowNode.drawn]

/-- Gathering gives a decision the position that it was drawn at. -/
theorem settledBy_placedAt (distinct : ((ns.flatMap FlowNode.decidings).map Deciding.id).Nodup)
    {n : FlowNode} (owner : n ∈ ns) {f : NodeFunction} (called : f ∈ n.data.functionList) :
    f.settledBy (decisionPosition? (expansion settings ns)) n.id =
      f.placedAt (n.drawn.below settings) := by
  unfold NodeFunction.settledBy
  cases h : f.decision with
  | none =>
    have same : f.placedAt (n.drawn.below settings) = f :=
      f.placedAt_of_placed _ fun d some => by rw [h] at some; cases some
    rw [same]
    split
    · rw [Option.map_none, ← h]
    · rfl
  | some d =>
    have member : ⟨n, f, d⟩ ∈ ns.flatMap FlowNode.decidings :=
      List.mem_flatMap.2 ⟨n, owner, List.mem_filterMap.2 ⟨f, called, by simp [h]⟩⟩
    have position := decisionPosition?_of_mem settings distinct member
    rw [position_eq, Deciding.id] at position
    simp only [position, NodeFunction.placedAt, h, Option.map_some, Decision.placedAt]

/-- The graph of a flow settles its nodes with every decision placed. -/
theorem settledBy_expansion (distinct : ((ns.flatMap FlowNode.decidings).map Deciding.id).Nodup)
    {n : FlowNode} (owner : n ∈ ns) :
    n.settledBy (decisionPosition? (expansion settings ns)) = n.drawn.placed settings := by
  have functions :
      n.data.functions.map (·.map (·.settledBy (decisionPosition? (expansion settings ns)) n.id)) =
        n.data.functions.map (·.map (·.placedAt (n.drawn.below settings))) := by
    cases h : n.data.functions with
    | none => rfl
    | some fs =>
      have each : ∀ f ∈ fs, f.settledBy (decisionPosition? (expansion settings ns)) n.id =
          f.placedAt (n.drawn.below settings) := fun f member =>
        settledBy_placedAt distinct owner (by simpa [NodeData.functionList, h] using member)
      simp [List.map_congr_left each]
  rw [FlowNode.settledBy, NodeData.settledBy, functions]
  rfl

/-- The regular nodes drawn are those of the flow. -/
theorem regular_expansion (settings : Settings) (ns : List FlowNode) :
    regular (expansion settings ns) = ns.map Node.ofNode := by
  have own : regular (ns.map Node.ofNode) = ns.map Node.ofNode :=
    List.filter_eq_self.2 (by simp)
  have managed : regular ((ns.flatMap FlowNode.decidings).map (Deciding.graphNode settings)) = [] :=
    List.filter_eq_nil_iff.2 fun m member => by
      obtain ⟨x, -, rfl⟩ := List.mem_map.1 member
      simp
  rw [expansion, regular_append, own, managed, List.append_nil]

end Graph

/-! ## The document of a graph -/

namespace Flow

/-- The flow as a graph leaves it. -/
def settled (settings : Settings) (f : Flow) : Flow :=
  { f with
    nodes := f.nodes.map fun n => n.drawn.placed settings
    edges := f.nodes.flatMap FlowNode.directEdges }

/-- A settled node is lawful again. -/
theorem lawful_settledNode {settings : Settings} {n : FlowNode} (lawful : n.Lawful) :
    (n.drawn.placed settings).Lawful where
  id := lawful.id
  names g called := by
    simp only [FlowNode.placed, NodeData.functionList_placedAt] at called
    obtain ⟨f, member, rfl⟩ := List.mem_map.1 called
    exact lawful.names f member
  others := lawful.others

theorem Lawful.settled (settings : Settings) {f : Flow} (lawful : f.Lawful) :
    (f.settled settings).Lawful where
  nodes n member := by
    obtain ⟨m, there, rfl⟩ := List.mem_map.1 member
    exact lawful_settledNode (lawful.nodes m there)
  someNode := by simpa [Flow.settled] using lawful.someNode

/-- Settling leaves the direct edges alone. -/
theorem directEdges_settled (settings : Settings) (ns : List FlowNode) :
    (ns.map fun n => n.drawn.placed settings).flatMap FlowNode.directEdges =
      ns.flatMap FlowNode.directEdges := by
  have each (n : FlowNode) : (n.drawn.placed settings).directEdges = n.directEdges :=
    FlowNode.directEdges_placedAt n.drawn _
  simp only [List.flatMap_map, each]

/-- Gathering the graph of a flow gives the flow settled. -/
theorem toFlow_of_heldBy (settings : Settings) {es : Entries} {f : Flow} (held : f.HeldBy es)
    (lawful : f.Lawful) (ids : f.ids.Nodup)
    (names : ∀ n ∈ f.nodes, (n.data.functionList.map (·.name)).Nodup) :
    Graph.toFlow (some (.map es)) (Graph.expansion settings f.nodes) =
      .ok (f.settled settings).gathered := by
  have distinct := Graph.nodup_ids_decidings lawful.nodes ids names
  have nodes : f.nodes.map
      (·.settledBy (Graph.decisionPosition? (Graph.expansion settings f.nodes))) =
      f.nodes.map fun n => n.drawn.placed settings :=
    List.map_congr_left fun n owner => Graph.settledBy_expansion distinct owner
  have own := Graph.regular_expansion settings f.nodes
  rw [toFlow_of_regular held (fun n member => (lawful.nodes n member).writable) own, nodes,
    withNodes, directEdges_settled]
  rfl

/-! ### A second time -/

/-- Settling twice is settling once, whatever the settings. -/
theorem settledNode_settledNode (settings settings' : Settings) (n : FlowNode) :
    (n.drawn.placed settings).drawn.placed settings' = n.drawn.placed settings := by
  have unsigned (x : Float) : Number.unsigned (Number.unsigned x) = Number.unsigned x := by
    cases h : (x != 0.0) <;> simp [Number.unsigned, h]
  have drawn : (n.drawn.placed settings).drawn = n.drawn.placed settings := by
    simp only [FlowNode.drawn, FlowNode.placed, FlowNode.withRole, Position.unsigned, unsigned]
    rfl
  rw [drawn, FlowNode.placed_placed]

/-- A settled flow is not changed by its graph. -/
theorem settled_settled (settings settings' : Settings) (f : Flow) :
    (f.settled settings).settled settings' = f.settled settings := by
  have nodes : ((f.nodes.map fun n => n.drawn.placed settings).map fun n =>
      n.drawn.placed settings') = f.nodes.map fun n => n.drawn.placed settings := by
    rw [List.map_map]
    exact List.map_congr_left fun n _ => settledNode_settledNode settings settings' n
  simp only [settled, nodes, directEdges_settled]

/-- A flow settles as its normal form does. -/
theorem settled_normalize (settings : Settings) (f : Flow) :
    f.normalize.settled settings = f.settled settings := by
  simp only [settled, normalize, List.map_map, List.flatMap_map]
  rfl

theorem ids_settled (settings : Settings) (f : Flow) : (f.settled settings).ids = f.ids := by
  simp only [ids, settled, List.map_map]
  rfl

theorem names_settled (settings : Settings) {f : Flow}
    (names : ∀ n ∈ f.nodes, (n.data.functionList.map (·.name)).Nodup) :
    ∀ n ∈ (f.settled settings).nodes, (n.data.functionList.map (·.name)).Nodup := by
  intro n member
  obtain ⟨m, there, rfl⟩ := List.mem_map.1 member
  have same : (m.drawn.placed settings).data.functionList.map (·.name) =
      m.data.functionList.map (·.name) := by
    simp only [FlowNode.placed, NodeData.functionList_placedAt, List.map_map]
    rfl
  rw [same]
  exact names m there

end Flow

/-! ### Nothing else differs -/

section

open Document (Same sameEntries_of_perm sameEntries_of_forall₂ same_refl same_listOf)

variable (settings : Settings)

/-- A drawn node differs from the stored one by the signs of zeros at most. -/
theorem same_settledNode (n : FlowNode) :
    Same (n.drawn.placed settings).document (n.withRole.placed settings).document := by
  have position : Same n.position.unsigned.document n.position.document :=
    sameEntries_of_forall₂ (.cons ⟨rfl, Number.same_unsigned _⟩
      (.cons ⟨rfl, Number.same_unsigned _⟩ .nil))
  have below : Same (n.drawn.below settings).document (n.withRole.below settings).document :=
    sameEntries_of_forall₂ (.cons ⟨rfl, Number.same_unsigned_add _ _⟩
      (.cons ⟨rfl, Number.same_unsigned_add _ _⟩ .nil))
  exact sameEntries_of_forall₂ (.cons ⟨rfl, same_refl _⟩ (.cons ⟨rfl, same_refl _⟩
    (.cons ⟨rfl, position⟩ (.cons ⟨rfl, n.data.same_placedAt below⟩ .nil))))

/-- What a graph leaves of a flow is the normalized flow with its decisions placed. -/
theorem same_settled (f : Flow) :
    Same (f.settled settings).gathered (f.normalize.placed settings).document := by
  have order : (ofFields (f.normalize.placed settings).fields).Perm
      (ofFields (f.normalize.placed settings).gatheredFields) :=
    (List.Perm.filterMap _ (@List.perm_middle _ _ [_, _] _)).map _
  refine sameEntries_of_perm order ?_
  have nodes : Same (listOf FlowNode.document (f.nodes.map fun n => n.drawn.placed settings))
      (listOf FlowNode.document
        ((f.nodes.map FlowNode.withRole).map (FlowNode.placed settings))) := by
    simp only [listOf, List.map_map]
    exact same_listOf fun n _ => same_settledNode settings n
  rw [Flow.gatheredFields, Flow.gatheredFields, Entries.ofFields_append, Entries.ofFields_append]
  exact List.rel_append (List.forall₂_same.2 fun e _ => ⟨rfl, same_refl e.2⟩)
    (.cons ⟨rfl, nodes⟩ (.cons ⟨rfl, same_refl _⟩ .nil))

end

namespace Graph

/-- What holds of the document that comes back from the graph of a normalized flow. -/
structure Restored (settings : Settings) (f : Flow) (back : Document) : Prop where
  /-- Its decisions are placed, and nothing else differs. -/
  same : back.Same (f.placed settings).document
  /-- Without floats that are no number, the two are equal. -/
  alike : (f.placed settings).document.Defined → back.alike (f.placed settings).document
  /-- Where all decisions have a position, it is the document of the flow. -/
  unchanged : f.Placed → back.Same f.document
  /-- A second time it comes back as it is. -/
  again : ∀ settings', ∃ nodes edges, ofFlow settings' back = .ok (nodes, edges) ∧
    toFlow (some back) nodes = .ok back

/-- A flow whose ids and names differ comes back from its graph. -/
theorem roundTrip (settings : Settings) {raw : Document} {f : Flow}
    (read : Flow.ofDocument .use raw = .ok f) (ids : f.ids.Nodup)
    (names : ∀ n ∈ f.nodes, (n.data.functionList.map (·.name)).Nodup) :
    ∃ nodes edges back, ofFlow settings f.normalize.document = .ok (nodes, edges) ∧
      toFlow (some f.normalize.document) nodes = .ok back ∧
      Restored settings f.normalize back := by
  have lawful := (Flow.shownIn_of_check (Flow.ofDocument_eq_ok.1 read)).2
  obtain ⟨edges, expands, -⟩ := ofFlow_normalize settings lawful ids names
  have gathers := Flow.toFlow_of_heldBy settings f.normalize.heldBy_entries lawful.normalize
    (by rwa [Flow.ids, Flow.ids_normalize]) (Flow.names_normalize names)
  rw [Flow.settled_normalize, show f.normalize.nodes = f.nodes.map FlowNode.withRole from rfl,
    expansion_withRole] at gathers
  have same := same_settled settings f
  refine ⟨_, edges, _, expands, gathers, same, Document.alike_of_same same, fun placed => ?_,
    fun settings' => ?_⟩
  · rwa [Flow.placed_of_placed settings placed] at same
  · have held := (f.settled settings).heldBy_gathered
    have again := lawful.settled settings
    have ids : (f.settled settings).ids.Nodup := by rwa [Flow.ids_settled]
    have names := Flow.names_settled settings names
    obtain ⟨edges', expands', -⟩ := ofFlow_of_get settings' held.nodes again.nodes ids names
    have gathers' := Flow.toFlow_of_heldBy settings' held again ids names
    rw [Flow.settled_settled] at gathers'
    exact ⟨_, edges', expands', gathers'⟩

theorem roundTrip_sample : ∃ nodes edges back,
    ofFlow {} Flow.sample.normalize.document = .ok (nodes, edges) ∧
      toFlow (some Flow.sample.normalize.document) nodes = .ok back ∧
      Restored {} Flow.sample.normalize back :=
  roundTrip {} (Flow.ofDocument_eq_ok.2 Flow.check_sample) (by decide) (by decide)

end Graph
end Dialogue
