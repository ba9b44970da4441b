import Dialogue.Proofs.Flow.Kept
import Dialogue.Proofs.Graph.Dragging
import Dialogue.Proofs.Graph.EdgeIds

/-!
# Ids of an expanded graph

The graph that a document expands to has the ids of the flow that it is checked as: those of its
nodes and their decisions, and those of the edges that its functions call for. They all differ if
the flow's node ids differ, and in each node the names of its functions, whatever the targets are
called and wherever they lead.
-/

namespace Dialogue

open Dialogue.Graph (Way Exit EdgeKey Node Owned)

/-! ## The ids of a flow -/

def NodeFunction.edgeKeys (f : NodeFunction) (owner : String) : List EdgeKey :=
  f.ways.map fun w => ⟨owner, f.name, w.1⟩

def FlowNode.edgeKeys (n : FlowNode) : List EdgeKey :=
  n.data.functionList.flatMap (·.edgeKeys n.id)

/-- What the ids of the edges of a flow's graph are made of. -/
def Flow.edgeKeys (f : Flow) : List EdgeKey := f.nodes.flatMap FlowNode.edgeKeys

def Flow.decidings (f : Flow) : List Deciding := f.nodes.flatMap FlowNode.decidings

/-- The ids of the nodes of a flow's graph. -/
def Flow.graphIds (f : Flow) : List String := f.ids ++ f.decidings.map Deciding.id

/-- The names of each node's functions differ. -/
def Flow.NamesApart (f : Flow) : Prop :=
  ∀ n ∈ f.nodes, (n.data.functionList.map (·.name)).Nodup

instance (f : Flow) : Decidable f.NamesApart :=
  inferInstanceAs (Decidable (∀ n ∈ f.nodes, (n.data.functionList.map (·.name)).Nodup))

/-- The conditions of a decision are told apart by their places. -/
theorem Decision.nodup_exits (d : Decision) : (d.exits.map Prod.fst).Nodup := by
  have conditions : (d.conditions.zipIdx.map fun c => Exit.condition c.2 c.1.target).Nodup := by
    have places := List.pairwise_map.1 (List.nodup_zipIdx_map_snd d.conditions)
    exact List.pairwise_map.2 (places.imp fun apart same => apart (Exit.condition.inj same).1)
  rw [Decision.exits, List.map_append, List.map_map]
  refine conditions.append (List.nodup_singleton _) ?_
  simp

/-- A function has no two ways of one kind and place. -/
theorem NodeFunction.nodup_ways (f : NodeFunction) : (f.ways.map Prod.fst).Nodup := by
  unfold ways
  split
  case h_1 d _ =>
    have onward : ((d.exits.map Prod.fst).map Way.onward).Nodup :=
      d.nodup_exits.map fun _ _ => Way.onward.inj
    simpa [Function.comp_def] using onward
  case h_2 => cases f.directTarget? <;> simp

/-- So its edges differ. -/
theorem NodeFunction.nodup_edgeKeys (f : NodeFunction) (owner : String) :
    (f.edgeKeys owner).Nodup := by
  have keys := f.nodup_ways.map (f := fun w => EdgeKey.mk owner f.name w)
    fun _ _ same => (EdgeKey.mk.inj same).2.2
  simpa [edgeKeys, Function.comp_def] using keys

theorem NodeFunction.of_mem_edgeKeys {f : NodeFunction} {owner : String} {k : EdgeKey}
    (member : k ∈ f.edgeKeys owner) : k.owner = owner ∧ k.name = f.name := by
  obtain ⟨w, -, rfl⟩ := List.mem_map.1 member
  exact ⟨rfl, rfl⟩

/-- The edges of a node differ where its functions are told apart. -/
theorem FlowNode.nodup_edgeKeys {n : FlowNode}
    (names : (n.data.functionList.map (·.name)).Nodup) : n.edgeKeys.Nodup := by
  refine List.nodup_flatMap.2 ⟨fun f _ => f.nodup_edgeKeys n.id, ?_⟩
  refine (List.pairwise_map.1 names).imp fun {f g} apart k left right => apart ?_
  exact (NodeFunction.of_mem_edgeKeys left).2.symm.trans (NodeFunction.of_mem_edgeKeys right).2

theorem FlowNode.of_mem_edgeKeys {n : FlowNode} {k : EdgeKey} (member : k ∈ n.edgeKeys) :
    k.owner = n.id ∧ ∃ f ∈ n.data.functionList, k.name = f.name := by
  obtain ⟨f, called, member⟩ := List.mem_flatMap.1 member
  exact ⟨(NodeFunction.of_mem_edgeKeys member).1, f, called,
    (NodeFunction.of_mem_edgeKeys member).2⟩

namespace Flow

variable {f : Flow}

/-- All edges of the flow differ by what they are made of. -/
theorem nodup_edgeKeys (ids : f.ids.Nodup) (names : f.NamesApart) : f.edgeKeys.Nodup := by
  refine List.nodup_flatMap.2 ⟨fun n member => FlowNode.nodup_edgeKeys (names n member), ?_⟩
  refine (List.pairwise_map.1 ids).imp fun {n m} apart k left right => apart ?_
  exact (FlowNode.of_mem_edgeKeys left).1.symm.trans (FlowNode.of_mem_edgeKeys right).1

/-- No part of an edge's id has a hyphen in it. -/
theorem hyphenFree_of_mem_edgeKeys (lawful : f.Lawful) {k : EdgeKey} (member : k ∈ f.edgeKeys) :
    k.HyphenFree := by
  obtain ⟨n, there, member⟩ := List.mem_flatMap.1 member
  obtain ⟨owner, g, called, name⟩ := FlowNode.of_mem_edgeKeys member
  constructor
  · rw [owner]
    exact Identifier.hyphenFree_of_isIdentifier (lawful.nodes n there).id
  · rw [name]
    exact Identifier.hyphenFree_of_isIdentifier ((lawful.nodes n there).names g called)

/-- So the edges differ by their ids. -/
theorem nodup_edgeIds (lawful : f.Lawful) (ids : f.ids.Nodup) (names : f.NamesApart) :
    (f.edgeKeys.map EdgeKey.id).Nodup :=
  (nodup_edgeKeys ids names).map_on fun _ left _ right same =>
    EdgeKey.id_inj (hyphenFree_of_mem_edgeKeys lawful left)
      (hyphenFree_of_mem_edgeKeys lawful right) same

/-- The id of a decision holds a hyphen, so it is that of no node of the flow. -/
theorem nodup_graphIds (lawful : f.Lawful) (ids : f.ids.Nodup) (names : f.NamesApart) :
    f.graphIds.Nodup := by
  refine ids.append (Graph.nodup_ids_decidings lawful.nodes ids names) fun id own decision => ?_
  obtain ⟨n, there, rfl⟩ := List.mem_map.1 own
  obtain ⟨d, -, same⟩ := List.mem_map.1 decision
  have same : Identifier.decisionId d.node.id d.function.name = n.id := same
  have free := Identifier.hyphenFree_of_isIdentifier (lawful.nodes n there).id
  exact Identifier.not_hyphenFree_decisionId _ _ (same ▸ free)

end Flow

/-! ## What is read of a document -/

namespace Reading

/-- The functions of a node are read one by one from those that stand in its data. -/
theorem functions_of_node {es data : Entries} {n : FlowNode} (h : node (.map es) = .ok n)
    (maps : (es.get "data").Maps data) :
    (data.get "functions").Lists (fun d f => nodeFunction d = .ok f) n.data.functionList := by
  simp only [node, record_eq_ok, Document.map.injEq, exists_eq_left', Checked.functor_map_eq,
    Checked.seq_eq_ok, Checked.map_eq_ok, Checked.exists_exists_and_and, required_eq_ok] at h
  obtain ⟨_, -, id, -, role, -, _, -, position, -, own, h, rfl⟩ := h
  obtain ⟨absent, rfl⟩ | ⟨d, there, h⟩ := defaulting_eq_ok.1 h
  · obtain ⟨-, rfl⟩ | map := maps
    · exact .inl ⟨rfl, rfl⟩
    · simp [Entries.get, absent] at map
  · simp only [nodeData, record_eq_ok, Checked.functor_map_eq, Checked.seq_eq_ok,
      Checked.map_eq_ok, Checked.exists_exists_and_and, exists_eq_left'] at h
    obtain ⟨ds, rfl, label, -, roleMessages, -, taskMessages, -, functions, called, preActions, -,
      postActions, -, strategy, -, respond, -, others, -, rfl⟩ := h
    obtain ⟨null, -⟩ | map := maps
    · simp [Entries.get, there] at null
    · obtain rfl : ds = data := by simpa [Entries.get, there] using map
      exact lists_of_optional (fun _ _ h => h) called

theorem position_of_node {es : Entries} {n : FlowNode} (h : node (.map es) = .ok n) :
    ∃ p, es.get? "position" = some p ∧ position p = .ok n.position := by
  simp only [node, record_eq_ok, Document.map.injEq, exists_eq_left', Checked.functor_map_eq,
    Checked.seq_eq_ok, Checked.map_eq_ok, Checked.exists_exists_and_and, required_eq_ok] at h
  obtain ⟨_, -, id, -, role, -, p, there, position, read, data, -, rfl⟩ := h
  exact ⟨p, there, read⟩

/-- A function's decision has no position, or one that is read. -/
theorem position_of_nodeFunction {es ds : Entries} {f : NodeFunction}
    (h : nodeFunction (.map es) = .ok f) (decided : es.get "decision" = .map ds) :
    ds.get "decision_node_position" = .null ∨
      ∃ p q, ds.get "decision_node_position" = p ∧ position p = .ok q := by
  simp only [nodeFunction, record_eq_ok, Document.map.injEq, exists_eq_left',
    Checked.functor_map_eq, Checked.seq_eq_ok, Checked.map_eq_ok,
    Checked.exists_exists_and_and] at h
  obtain ⟨signature, -, target, -, decision, h, rfl⟩ := h
  obtain ⟨absent, -⟩ | ⟨d, x, found, -, h, -⟩ := optional_eq_ok.1 h
  · rw [absent] at decided
    cases decided
  · obtain rfl : d = .map ds := by simpa [Entries.get, found] using decided
    simp only [Reading.decision, record_eq_ok, Document.map.injEq, exists_eq_left',
      Checked.functor_map_eq, Checked.seq_eq_ok, Checked.map_eq_ok,
      Checked.exists_exists_and_and] at h
    obtain ⟨action, -, conditions, -, fallback, -, position, h, rfl⟩ := h
    obtain ⟨absent, -⟩ | ⟨p, q, found, -, h, -⟩ := optional_eq_ok.1 h
    · exact .inl absent
    · exact .inr ⟨p, q, Entries.get_of_get? found, h⟩

/-- A position that was read has two numbers in it. -/
theorem coordinates_of_position {d : Document} {p : Position} (h : position d = .ok p) :
    ∃ (es : Entries) (x y : Document), d = .map es ∧ es.get? "x" = some x ∧ float x = .ok p.x ∧
      es.get? "y" = some y ∧ float y = .ok p.y := by
  simp only [position, record_eq_ok, Checked.functor_map_eq, Checked.seq_eq_ok, Checked.map_eq_ok,
    Checked.exists_exists_and_and, exists_eq_left', required_eq_ok] at h
  obtain ⟨es, rfl, x, hx, a, ha, y, hy, b, hb, rfl⟩ := h
  exact ⟨es, x, y, rfl, hx, ha, hy, hb⟩

end Reading

namespace Graph

/-! ## The nodes of the graph -/

/-- A node of a graph that comes from the document of a flow's node. -/
structure Node.Depicts (m : Node) (n : FlowNode) : Prop where
  id : m.id = n.id
  regular : m.isDecision = false
  functions : ∃ fs, m.functions = .ok fs ∧
    List.Forall₂ (fun es f => Reading.nodeFunction (.map es) = .ok f) fs n.data.functionList

theorem forall₂_mapsOf {ds : List Document} {fs : List NodeFunction}
    (items : List.Forall₂ (fun d f => Reading.nodeFunction d = .ok f) ds fs) :
    List.Forall₂ (fun es f => Reading.nodeFunction (.map es) = .ok f) (Node.mapsOf ds) fs := by
  induction items with
  | nil => exact .nil
  | cons here _ ih =>
    obtain ⟨es, rfl, -⟩ := Reading.record_eq_ok.1 here
    exact .cons here ih

/-- What becomes of the document of a flow's node, once its position is read. -/
theorem nodeOfFlow_of_read {es : Entries} {n : FlowNode} (h : Reading.node (.map es) = .ok n) :
    ∃ data : Entries, (es.get "data").Maps data ∧ nodeOfFlow (.map es) = (do
      let position ← Node.positionOf (es.get "position")
      return {
        id := n.id
        kind := n.data.role.name
        position
        data
        selected := (es.get "selected").isTrue }) := by
  obtain ⟨⟨es', same, shown⟩, -⟩ := Reading.shownIn_of_node h
  obtain rfl : es = es' := by simpa using same
  obtain ⟨data, maps, own⟩ := shown.data
  refine ⟨data, maps, ?_⟩
  simp only [nodeOfFlow, Node.ofDocument, Document.entries, ok_bind, shown.id,
    Document.display_text]
  cases Node.positionOf (es.get "position") with
  | error e => rfl
  | ok p =>
    obtain ⟨null, rfl⟩ | map := maps
    · simp [null, own.role]
    · simp [map, own.role]

/-- A node drawn of a document depicts the node read of it. -/
theorem depicts_of_nodeOfFlow {d : Document} {n : FlowNode} {m : Node}
    (h : Reading.node d = .ok n) (run : nodeOfFlow d = .ok m) : m.Depicts n := by
  obtain ⟨es, rfl, -⟩ := Reading.record_eq_ok.1 h
  obtain ⟨data, maps, same⟩ := nodeOfFlow_of_read h
  obtain ⟨p, -, made⟩ := bind_eq_ok.1 (same.symm.trans run)
  obtain rfl := Except.ok.inj made
  refine ⟨rfl, isDecision_of_role n.data.role rfl, ?_⟩
  obtain ⟨ds, read, items⟩ := (Reading.functions_of_node h maps).elementsOrNone
  exact ⟨Node.mapsOf ds, by simp [Node.functions, read], forall₂_mapsOf items⟩

/-! ## Ids of decisions and edges -/

theorem shownBy_of_read {es : Entries} {f : NodeFunction}
    (h : Reading.nodeFunction (.map es) = .ok f) : f.ShownBy es ∧ f.name ≠ "" := by
  obtain ⟨⟨es', same, shown⟩, valid⟩ := Reading.shownIn_of_nodeFunction h
  obtain rfl : es = es' := by simpa using same
  exact ⟨shown, Identifier.ne_empty_of_isIdentifier valid⟩

/-- A depicted node owns the decisions of its functions, by their ids. -/
theorem ids_ownedBy {m : Node} {n : FlowNode} (depicts : m.Depicts n) :
    ∃ os, ownedBy m = .ok os ∧ os.map Owned.id = n.decidings.map Deciding.id := by
  obtain ⟨fs, functions, items⟩ := depicts.functions
  simp only [ownedBy, depicts.regular, functions, Bool.false_eq_true, if_false, ok_bind]
  refine ⟨_, rfl, map_of_forall₂ (R := fun (o : Owned) (d : Deciding) => o.id = d.id)
    (List.rel_filterMap ?_ items) fun _ _ same => same⟩
  intro es f read
  obtain ⟨shown, named⟩ := shownBy_of_read read
  have isTrue : (es.get "name").isTrue := by simp [shown.name, Document.isTrue, named]
  have decided := shown.decision
  cases h : f.decision with
  | none =>
    rw [h] at decided
    have null : es.get "decision" = .null := decided
    simp only [null, h]
    exact .none
  | some d =>
    rw [h] at decided
    obtain ⟨ds, stands, -⟩ := decided
    have same : Owned.id ⟨m, es, ds⟩ = Deciding.id ⟨n, f, d⟩ := by
      simp [Owned.id, Owned.name, Deciding.id, shown.name, depicts.id]
    simp only [stands, isTrue, if_true, h]
    exact .some same

/-- The edges of conditions are numbered by the places of the conditions. -/
theorem ids_conditionEdges (owner name : String) {ds : List Document} {cs : List Condition}
    (items : List.Forall₂ Condition.ShownIn ds cs) :
    ∃ edges, conditionEdges (Identifier.decisionId owner name) ds = .ok edges ∧
      edges.map (·.id) = cs.zipIdx.map fun c =>
        EdgeKey.id ⟨owner, name, .onward (.condition c.2 c.1.target)⟩ := by
  obtain ⟨edges, run, same⟩ := exists_mapM_of_forall₂
    (Q := fun (e : Edge) (c : Condition × Nat) =>
      e.id = EdgeKey.id ⟨owner, name, .onward (.condition c.2 c.1.target)⟩)
    (f := fun c => conditionEdge (Identifier.decisionId owner name) c.2 c.1)
    (forall₂_zipIdx_zipIdx items 0) (by
      rintro ⟨_, i⟩ ⟨c, _⟩ ⟨⟨es, rfl, target⟩, rfl⟩
      have target : es.get "next_node_id" = .text c.target := target
      exact ⟨_, rfl, by simp [target, EdgeKey.id, Exit.suffix, String.append_assoc]⟩)
  exact ⟨edges, run, map_of_forall₂ same fun _ _ h => h⟩

/-- The edges of a function have the ids of its ways. -/
theorem ids_functionEdges (owner : String) {es : Entries} {f : NodeFunction}
    (read : Reading.nodeFunction (.map es) = .ok f) :
    ∃ edges, functionEdges (.text owner) es = .ok edges ∧
      edges.map (·.id) = (f.edgeKeys owner).map EdgeKey.id := by
  obtain ⟨shown, named⟩ := shownBy_of_read read
  have isTrue : (es.get "name").isTrue := by simp [shown.name, Document.isTrue, named]
  have decided := shown.decision
  have target : es.get "next_node_id" = .ofOption (f.target.map .text) := shown.target
  simp only [functionEdges, isTrue, Bool.not_true, Bool.false_eq_true, if_false,
    NodeFunction.edgeKeys, NodeFunction.ways]
  cases h : f.decision with
  | some d =>
    rw [h] at decided
    obtain ⟨ds, stands, shows⟩ := decided
    obtain ⟨items, conditions, shown_items⟩ := shows.conditions.elementsOrNone
    obtain ⟨branches, run, same⟩ := ids_conditionEdges owner f.name shown_items
    have default : ds.get "default_next_node_id" = .text d.fallback := shows.fallback
    simp [stands, decisionEdges, shown.name, conditions, run, default, Decision.exits, same,
      EdgeKey.id, Exit.suffix, fallbackEdge, String.append_assoc, Function.comp_def]
  | none =>
    rw [h] at decided
    have null : es.get "decision" = .null := decided
    simp only [null, target]
    cases t : f.target with
    | none => simp [Document.ofOption, NodeFunction.directTarget?, h, t, Document.isTrue]
    | some t' =>
      by_cases empty : t' = "" <;>
        simp [Document.ofOption, NodeFunction.directTarget?, h, t, empty, Document.isTrue,
          directEdge, shown.name, EdgeKey.id]

theorem ids_nodeEdges {m : Node} {n : FlowNode} (depicts : m.Depicts n) :
    ∃ edges, nodeEdges m = .ok edges ∧ edges.map (·.id) = n.edgeKeys.map EdgeKey.id := by
  obtain ⟨fs, functions, items⟩ := depicts.functions
  obtain ⟨outs, run, same⟩ := exists_mapM_of_forall₂ items
    fun es f read => ids_functionEdges n.id read
  exact ⟨outs.flatten, by simp [nodeEdges, depicts.regular, functions, depicts.id, run],
    map_flatten_of_forall₂ same⟩

/-! ## The whole graph -/

variable {ms : List Node} {ns : List FlowNode}

/-- The decisions expected are those of the flow, once each. -/
theorem ids_expected (depict : List.Forall₂ Node.Depicts ms ns)
    (apart : ((ns.flatMap FlowNode.decidings).map Deciding.id).Nodup) :
    ∃ os, expected ms = .ok os ∧
      os.map Owned.id = (ns.flatMap FlowNode.decidings).map Deciding.id := by
  obtain ⟨oss, run, same⟩ := exists_mapM_of_forall₂ depict fun m n h => ids_ownedBy h
  have ids : oss.flatten.map Owned.id = (ns.flatMap FlowNode.decidings).map Deciding.id :=
    map_flatten_of_forall₂ same
  have nodup : (([] ++ oss.flatten).map Owned.id).Nodup := by rwa [List.nil_append, ids]
  exact ⟨oss.flatten, by simp [expected, run, foldl_putOwned_of_nodup nodup], ids⟩

/-- The edges derived have the ids of all ways in the flow. -/
theorem ids_deriveEdges {decisions : List Node} (depict : List.Forall₂ Node.Depicts ms ns)
    (managed : ∀ d ∈ decisions, d.isDecision) :
    ∃ edges, deriveEdges (ms ++ decisions) = .ok edges ∧
      edges.map (·.id) = (ns.flatMap FlowNode.edgeKeys).map EdgeKey.id := by
  obtain ⟨outs, run, same⟩ := exists_mapM_of_forall₂ depict fun m n h => ids_nodeEdges h
  have none : decisions.mapM nodeEdges = .ok (decisions.map fun _ => []) :=
    mapM_eq_map fun d member => by simp [nodeEdges, managed d member]
  exact ⟨outs.flatten, by simp [deriveEdges, List.mapM_append, run, none],
    map_flatten_of_forall₂ same⟩

/-- The graph of nodes that come from a flow has its ids, if there is a graph. -/
theorem ids_of_depicts (settings : Settings) (depict : List.Forall₂ Node.Depicts ms ns)
    (apart : ((ns.flatMap FlowNode.decidings).map Deciding.id).Nodup) :
    ∃ os, expected ms = .ok os ∧ reconcile settings ms = (do
        let built ← os.mapM (·.node settings)
        return { nodes := ms ++ built, created := os.map Owned.id }) ∧
      ∀ built, os.mapM (·.node settings) = .ok built →
        ∃ edges, deriveEdges (ms ++ built) = .ok edges ∧
          (ms ++ built).map (·.id) =
            ns.map (·.id) ++ (ns.flatMap FlowNode.decidings).map Deciding.id ∧
          edges.map (·.id) = (ns.flatMap FlowNode.edgeKeys).map EdgeKey.id := by
  obtain ⟨os, expects, ids⟩ := ids_expected depict apart
  have regular : ∀ m ∈ ms, m.isDecision = false := fun m member =>
    (exists_of_mem_left depict member).elim fun _ h => h.2.regular
  refine ⟨os, expects, reconcile_regular regular expects, fun built builds => ?_⟩
  have each := mapM_eq_ok.1 builds
  have managed : ∀ d ∈ built, d.isDecision := fun d member =>
    (exists_of_mem_right each member).elim fun _ h => (node_eq_ok h.2).2.1
  obtain ⟨edges, derived, same⟩ := ids_deriveEdges depict managed
  refine ⟨edges, derived, ?_, same⟩
  rw [List.map_append, map_of_forall₂ depict fun _ _ h => h.id, ← ids,
    map_of_forall₂ each fun _ _ h => (node_eq_ok h).1.symm]

end Graph

/-! ## Coordinates given as text -/

/-- A text that the format reads as a float, a canvas reads as a float as well. The two differ in
where they let underscores stand. -/
def Scalar.Plain : Scalar → Prop
  | .text s => (Number.lenientFloat? s.toList).isSome → (Number.floatOfText? s.toList).isSome
  | _ => True

namespace Graph

variable {P : Scalar → Prop}

/-- What holds throughout a map holds throughout a field. -/
theorem every_of_get? {es : Entries} {key : String} {d : Document}
    (every : (Document.map es).Every P) (found : es.get? key = some d) : d.Every P :=
  (Document.every_map.1 every _ (Entries.mem_of_get? found)).2

theorem every_of_get {es : Entries} {key : String} {d : Document}
    (every : (Document.map es).Every P) (found : es.get key = d) (ne : d ≠ .null) : d.Every P :=
  every_of_get? every (Entries.get?_of_get found ne)

theorem every_of_maps {es data : Entries} {key : String} (every : (Document.map es).Every P)
    (maps : (es.get key).Maps data) : (Document.map data).Every P := by
  obtain ⟨-, rfl⟩ | map := maps
  · simp
  · exact every_of_get every map (by simp)

theorem every_of_functions {m : Node} {fs : List Entries}
    (every : (Document.map m.data).Every P) (h : m.functions = .ok fs) :
    ∀ es ∈ fs, (Document.map es).Every P := by
  obtain ⟨ds, read, h⟩ := bind_eq_ok.1 h
  obtain rfl : Node.mapsOf ds = fs := Except.ok.inj h
  intro es member
  have there := mem_mapsOf.1 member
  have list := eq_list_of_elementsOrNone read there
  exact Document.every_list.1 (every_of_get every list (by simp)) _ there

/-- A number that was read can be drawn, unless it is too large. -/
theorem exists_asFloat {d : Document} {x : Float} (h : Reading.float d = .ok x)
    (plain : d.Every Scalar.Plain) : ∃ y, d.asFloat = .ok y := by
  cases d with
  | scalar s =>
    cases s with
    | text s =>
      simp only [Document.every_scalar, Scalar.Plain] at plain
      simp only [Reading.float, Reading.floatOfText] at h
      split at h
      case h_1 y found =>
        obtain ⟨z, read⟩ := Option.isSome_iff_exists.1 (plain (by simp [found]))
        exact ⟨z, by simp [Document.asFloat, Document.textAsFloat, read]⟩
      case h_2 => cases h
    | int n =>
      simp only [Reading.float] at h
      split at h
      case h_1 y found => exact ⟨y, by simp [Document.asFloat, Document.wholeAsFloat, found]⟩
      case h_2 => cases h
    | float x => exact ⟨x, rfl⟩
    | bool b => exact ⟨_, rfl⟩
    | _ => cases h
  | _ => cases h

theorem exists_asFloatOrZero {d : Document} {x : Float} (h : Reading.float d = .ok x)
    (plain : d.Every Scalar.Plain) : ∃ y, d.asFloatOrZero = .ok y := by
  unfold Document.asFloatOrZero
  split
  · exact exists_asFloat h plain
  · exact ⟨_, rfl⟩

/-- A node that was read can be drawn where no number is too large. -/
theorem exists_nodeOfFlow_of_plain {d : Document} {n : FlowNode} (h : Reading.node d = .ok n)
    (plain : d.Every Scalar.Plain) :
    ∃ m, nodeOfFlow d = .ok m ∧ (Document.map m.data).Every Scalar.Plain := by
  obtain ⟨es, rfl, -⟩ := Reading.record_eq_ok.1 h
  obtain ⟨data, maps, same⟩ := nodeOfFlow_of_read h
  obtain ⟨p, found, read⟩ := Reading.position_of_node h
  obtain ⟨ps, x, y, rfl, hx, ha, hy, hb⟩ := Reading.coordinates_of_position read
  have plainPosition := every_of_get? plain found
  obtain ⟨a, ha⟩ := exists_asFloatOrZero ha (every_of_get? plainPosition hx)
  obtain ⟨b, hb⟩ := exists_asFloatOrZero hb (every_of_get? plainPosition hy)
  have position : Node.positionOf (Entries.get es "position") = .ok ⟨a, b⟩ := by
    simp [Entries.get_of_get? found, Node.positionOf, Entries.get_of_get? hx,
      Entries.get_of_get? hy, ha, hb]
  exact ⟨_, by rw [same, position]; rfl, every_of_maps plain maps⟩

/-- So can its decisions. -/
theorem exists_node_of_read {settings : Settings} {o : Owned} {f : NodeFunction}
    (read : Reading.nodeFunction (.map o.function) = .ok f)
    (decided : o.function.get "decision" = .map o.decision)
    (plain : (Document.map o.function).Every Scalar.Plain) : ∃ n, o.node settings = .ok n := by
  have position : ∃ p, o.position settings = .ok p := by
    have plain := every_of_get plain decided (by simp)
    obtain null | ⟨p, q, found, read⟩ := Reading.position_of_nodeFunction read decided
    · exact ⟨_, by simp only [Owned.position, null]; rfl⟩
    · obtain ⟨ps, x, y, rfl, hx, ha, hy, hb⟩ := Reading.coordinates_of_position read
      have plainPosition := every_of_get plain found (by simp)
      obtain ⟨a, ha⟩ := exists_asFloat ha (every_of_get? plainPosition hx)
      obtain ⟨b, hb⟩ := exists_asFloat hb (every_of_get? plainPosition hy)
      exact ⟨⟨a, b⟩, by simp [Owned.position, found, hx, hy, ha, hb]⟩
  have summary : ∃ s, o.summary = .ok s := by
    have shown := (shownBy_of_read read).1.decision
    cases h : f.decision with
    | none =>
      rw [h, decided] at shown
      cases shown
    | some d =>
      rw [h, decided] at shown
      obtain ⟨ds, same, shows⟩ := shown
      obtain rfl : o.decision = ds := by simpa using same
      obtain ⟨items, conditions, -⟩ := shows.conditions.elementsOrNone
      exact ⟨_, by simp only [Owned.summary, conditions, ok_bind]; rfl⟩
  obtain ⟨p, position⟩ := position
  obtain ⟨s, summary⟩ := summary
  exact ⟨_, by simp only [Owned.node, position, summary, ok_bind]; rfl⟩

/-! ## The graph of a checked document -/

/-- The nodes drawn are those that were read. -/
theorem nodesOfFlow_of_check {d : Document} {f : Flow} (h : Flow.check d = .ok f) :
    ∃ ds, nodesOfFlow d = ds.mapM nodeOfFlow ∧
      List.Forall₂ (fun d n => Reading.node d = .ok n) ds f.nodes ∧
      ∀ P, d.Every P → ∀ x ∈ ds, x.Every P := by
  obtain ⟨es, rfl, -⟩ := (Flow.shownIn_of_check h).1
  obtain ⟨ds, stands, items⟩ := Flow.nodes_of_check h
  refine ⟨ds, by simp [nodesOfFlow, Document.asMap, stands], items, fun P every => ?_⟩
  exact Document.every_list.1 (every_of_get every stands (by simp))

/-- So a flow can be drawn where no number is too large. -/
theorem exists_ofFlow_of_plain (settings : Settings) {d : Document} {f : Flow}
    (h : Flow.check d = .ok f) (ids : f.ids.Nodup) (names : f.NamesApart)
    (plain : d.Every Scalar.Plain) : ∃ g, ofFlow settings d = .ok g := by
  obtain ⟨ds, same, items, parts⟩ := nodesOfFlow_of_check h
  have apart := nodup_ids_decidings (Flow.shownIn_of_check h).2.nodes ids names
  have made : ∀ d ∈ ds, ∃ m, nodeOfFlow d = .ok m ∧ (Document.map m.data).Every Scalar.Plain := by
    intro d there
    obtain ⟨n, -, read⟩ := exists_of_mem_left items there
    exact exists_nodeOfFlow_of_plain read (parts _ plain d there)
  obtain ⟨ms, run⟩ := exists_mapM fun d there => (made d there).imp fun _ h => h.1
  have depict := forall₂_of_mapM items run fun d n m => depicts_of_nodeOfFlow
  obtain ⟨os, expects, reconciles, graph⟩ := ids_of_depicts settings depict apart
  have builds : ∀ o ∈ os, ∃ n, o.node settings = .ok n := by
    intro o member
    have among := (expected_spec expects).2.1 o member
    obtain ⟨fs, functions, called⟩ := among.function
    obtain ⟨n, -, shows⟩ := exists_of_mem_left depict among.owner
    obtain ⟨d, there, same⟩ := exists_of_mem_right (mapM_eq_ok.1 run) among.owner
    obtain ⟨m, same', plain⟩ := made d there
    obtain rfl := Except.ok.inj (same.symm.trans same')
    obtain ⟨gs, functions', read⟩ := shows.functions
    obtain rfl := Except.ok.inj (functions.symm.trans functions')
    obtain ⟨f, -, read⟩ := exists_of_mem_left read called
    exact exists_node_of_read read among.decision (every_of_functions plain functions _ called)
  obtain ⟨built, builds⟩ := exists_mapM builds
  obtain ⟨edges, derived, -⟩ := graph built builds
  exact ⟨(ms ++ built, edges), by simp [ofFlow, same, run, reconciles, builds, derived]⟩

/-- The graph of a checked document has the ids of its flow, and they differ if the flow's node ids
and the names in each node do. There is a graph unless a coordinate is a text that only the format
reads as a number; there is always one of the flow's own document. -/
theorem nodup_ids_of_ofFlow (settings : Settings) {d : Document} {f : Flow}
    (h : Flow.check d = .ok f) (ids : f.ids.Nodup) (names : f.NamesApart) :
    (∀ nodes edges, ofFlow settings d = .ok (nodes, edges) →
      nodes.map (·.id) = f.graphIds ∧ edges.map (·.id) = f.edgeKeys.map EdgeKey.id ∧
        (nodes.map (·.id)).Nodup ∧ (edges.map (·.id)).Nodup) ∧
    (d.Every Scalar.Plain → ∃ g, ofFlow settings d = .ok g) ∧
      ∃ g, ofFlow settings f.document = .ok g := by
  have lawful := (Flow.shownIn_of_check h).2
  refine ⟨fun nodes edges run => ?_, exists_ofFlow_of_plain settings h ids names, ?_⟩
  · obtain ⟨ds, same, items, -⟩ := nodesOfFlow_of_check h
    obtain ⟨ms, read, run⟩ := bind_eq_ok.1 run
    obtain ⟨r, reconciled, run⟩ := bind_eq_ok.1 run
    have depict := forall₂_of_mapM items (same.symm.trans read) fun d n m => depicts_of_nodeOfFlow
    have apart := nodup_ids_decidings lawful.nodes ids names
    obtain ⟨os, -, reconciles, graph⟩ := ids_of_depicts settings depict apart
    rw [reconciles] at reconciled
    obtain ⟨built, builds, made⟩ := bind_eq_ok.1 reconciled
    obtain rfl := Except.ok.inj made
    obtain ⟨edges', derived, nodeIds, edgeIds⟩ := graph built builds
    simp only [derived, ok_bind, Except.ok.injEq, Prod.mk.injEq] at run
    obtain ⟨rfl, rfl⟩ := run
    have nodeIds : (ms ++ built).map (·.id) = f.graphIds := nodeIds
    have edgeIds : edges'.map (·.id) = f.edgeKeys.map EdgeKey.id := edgeIds
    refine ⟨nodeIds, edgeIds, ?_, ?_⟩
    · rw [nodeIds]
      exact Flow.nodup_graphIds lawful ids names
    · rw [edgeIds]
      exact Flow.nodup_edgeIds lawful ids names
  · obtain ⟨nodes, expands, -⟩ := graphEdges_of_ofFlow lawful
    exact ⟨_, expands⟩

/-- A flow whose names and targets are the words that ids are made of. -/
def homonyms : Flow where
  info := { name := "Homonyms", version := "1.0.0" }
  nodes := [
    { id := "decision"
      role := .plain
      position := ⟨0.0, 0.0⟩
      data := { functions := some [
        { name := "cond"
          description := ""
          decision := some {
            action := "result = 1"
            conditions := [⟨.less, "1", "0-default"⟩, ⟨.less, "1", "0-default"⟩]
            fallback := "0-default" } },
        { name := "default", description := "", target := some "decision-cond" }] } },
    { id := "cond"
      role := .plain
      position := ⟨0.0, 0.0⟩
      data := { functions := some [
        { name := "default", description := "", target := some "0-default" }] } }]
  edges := []

theorem nodup_ids_of_ofFlow_homonyms : Flow.check homonyms.document = .ok homonyms ∧
    homonyms.ids.Nodup ∧ homonyms.NamesApart ∧ ∃ nodes edges,
      ofFlow {} homonyms.document = .ok (nodes, edges) ∧
      nodes.map (·.id) = ["decision", "cond", "decision-decision-cond"] ∧
      edges.map (·.id) = ["edge-decision-decision-decision-cond",
        "edge-decision-decision-cond-cond-0-0-default",
        "edge-decision-decision-cond-cond-1-0-default",
        "edge-decision-decision-cond-default-0-default", "func-decision-default-decision-cond",
        "func-cond-default-0-default"] ∧
      (nodes.map (·.id)).Nodup ∧ (edges.map (·.id)).Nodup := by
  have checked : Flow.check homonyms.document = .ok homonyms := rfl
  have ids : homonyms.ids.Nodup := by decide
  have names : homonyms.NamesApart := by decide
  obtain ⟨graph, -, ⟨nodes, edges⟩, run⟩ := nodup_ids_of_ofFlow {} checked ids names
  obtain ⟨nodeIds, edgeIds, distinct⟩ := graph nodes edges run
  exact ⟨checked, ids, names, nodes, edges, run, nodeIds, edgeIds, distinct⟩

end Graph

end Dialogue
