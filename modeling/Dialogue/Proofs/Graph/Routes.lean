import Dialogue.Flow.Writing
import Dialogue.Graph.Source
import Dialogue.Proofs.Flow.Routing

/-!
# Edges of shown functions

The edges derived from a function end where the function leads, after one edge from its node to its
decision if it has one. The edges that a document stores are the direct edges of the flow it shows.
-/

namespace Dialogue

open Document (display)

@[simp] theorem Document.display_text (s : String) : (Document.text s).display = s := by
  simp [display, displayChars, Scalar.displayChars]

namespace Graph

@[simp] theorem decisionIdOf_text (owner name : String) :
    decisionIdOf owner (.text name) = Identifier.decisionId owner name := by
  simp [decisionIdOf]

/-- Where the routes of a function start: at its decision if it has one, else at its node. -/
def startOf (owner : String) (f : NodeFunction) : String :=
  if f.decision.isSome then Identifier.decisionId owner f.name else owner

/-- The edge from a node to the decision of one of its functions. -/
def handover (owner name : String) : Edge where
  id := "edge-" ++ owner ++ "-" ++ Identifier.decisionId owner name
  source := .text owner
  target := .text (Identifier.decisionId owner name)

/-- Conditions lead to their targets in order. -/
theorem conditionEdges_of_shown (id : String) {ds : List Document} {cs : List Condition}
    (items : List.Forall₂ Condition.ShownIn ds cs) :
    ∃ edges, conditionEdges id ds = .ok edges ∧
      List.Forall₂ (fun e c => e.source = .text id ∧ e.target = .text c.target) edges cs := by
  refine exists_mapM_of_forall₂ (forall₂_zipIdx items 0) ?_
  rintro ⟨_, i⟩ c ⟨es, rfl, target⟩
  exact ⟨_, rfl, rfl, target⟩

/-- The edges of a function: the handover to its decision, if any, then one for each route. -/
theorem functionEdges_of_shownBy (owner : String) {f : NodeFunction} {es : Entries}
    (shown : f.ShownBy es) (named : f.name ≠ "") :
    ∃ out, functionEdges (.text owner) es =
        .ok ((if f.decision.isSome then [handover owner f.name] else []) ++ out) ∧
      List.Forall₂ (fun e t => e.source = .text (startOf owner f) ∧ e.target = .text t)
        out f.routes := by
  have isTrue : (es.get "name").isTrue := by simp [shown.name, Document.isTrue, named]
  have decided := shown.decision
  have target : es.get "next_node_id" = .ofOption (f.target.map .text) := shown.target
  have live : (es.get "next_node_id").isTrue = (f.target.filter (· ≠ "")).isSome :=
    shown.isTrue_target
  simp only [functionEdges, isTrue, Bool.not_true, Bool.false_eq_true, if_false, startOf]
  cases h : f.decision with
  | some d =>
    rw [h] at decided
    obtain ⟨ds, stands, shows⟩ := decided
    obtain ⟨items, read, conditions⟩ := shows.conditions.elementsOrNone
    obtain ⟨branches, run, targets⟩ :=
      conditionEdges_of_shown (Identifier.decisionId owner f.name) conditions
    have default : ds.get "default_next_node_id" = .text d.fallback := shows.fallback
    refine ⟨branches ++ [fallbackEdge (Identifier.decisionId owner f.name) (.text d.fallback)],
      ?_, ?_⟩
    · simp [stands, decisionEdges, shown.name, read, run, default, handover]
    · simp only [NodeFunction.routes, h, Decision.targets, Option.isSome_some, if_true]
      refine List.rel_append ?_ (.cons ⟨rfl, rfl⟩ .nil)
      exact List.forall₂_map_right_iff.2 targets
  | none =>
    rw [h] at decided
    rw [show es.get "decision" = .null from decided, live]
    cases t : f.target with
    | none => exact ⟨[], rfl, by simp [NodeFunction.routes, NodeFunction.directTarget?, h, t]⟩
    | some t' =>
      by_cases empty : t' = ""
      · exact ⟨[], by simp [empty, Option.filter],
          by simp [NodeFunction.routes, NodeFunction.directTarget?, h, t, empty]⟩
      · refine ⟨[directEdge (.text owner) (.text f.name) (.text t')], ?_, ?_⟩
        · simp [shown.name, target, t, empty, Option.filter, Document.ofOption]
        · simp [NodeFunction.routes, NodeFunction.directTarget?, h, t, empty, directEdge]

/-- The edges of a function but the one that hands over to its decision. -/
def onward (owner name : String) (edges : List Edge) : List Edge :=
  edges.filter fun e =>
    !(e.source.isText owner && e.target.isText (Identifier.decisionId owner name))

/-- Without the edge to its decision, the edges of a function are those of its routes. -/
theorem onward_of_forall₂ {owner : String} {f : NodeFunction} {out : List Edge}
    (routes : List.Forall₂ (fun e t => e.source = .text (startOf owner f) ∧ e.target = .text t)
      out f.routes) (free : ∀ t ∈ f.routes, Identifier.HyphenFree t) :
    onward owner f.name
        ((if f.decision.isSome then [handover owner f.name] else []) ++ out) = out := by
  -- No route leads to the decision node itself: its id holds a hyphen, theirs hold none.
  have kept : onward owner f.name out = out := by
    refine List.filter_eq_self.2 fun e member => ?_
    obtain ⟨t, there, -, target⟩ := exists_of_mem_left routes member
    have ne : t ≠ Identifier.decisionId owner f.name := fun same =>
      Identifier.not_hyphenFree_decisionId owner f.name (same ▸ free t there)
    simp [target, ne]
  have append (a b : List Edge) : onward owner f.name (a ++ b) =
      onward owner f.name a ++ onward owner f.name b := List.filter_append ..
  rw [append, kept]
  split
  · simp [onward, handover]
  · rfl

/-- The edges of a node are those of its functions. -/
theorem mem_nodeEdges {n : Node} {edges : List Edge} (derived : nodeEdges n = .ok edges)
    {e : Edge} : e ∈ edges ↔ n.isDecision = false ∧ ∃ fs, n.functions = .ok fs ∧
      ∃ es ∈ fs, ∃ out, functionEdges (.text n.id) es = .ok out ∧ e ∈ out := by
  unfold nodeEdges at derived
  split at derived
  case isTrue decision =>
    obtain rfl := Except.ok.inj derived
    simp [decision]
  case isFalse notDecision =>
    obtain ⟨fs, functions, rest⟩ := bind_eq_ok.1 derived
    obtain ⟨outs, run, rest⟩ := bind_eq_ok.1 rest
    obtain rfl := Except.ok.inj rest
    rw [mapM_eq_ok] at run
    rw [List.mem_flatten]
    constructor
    · rintro ⟨out, there, member⟩
      obtain ⟨es, found, here⟩ := exists_of_mem_right run there
      exact ⟨by simpa using notDecision, fs, functions, es, found, out, here, member⟩
    · rintro ⟨-, gs, same, es, found, out, here, member⟩
      obtain rfl := Except.ok.inj (functions.symm.trans same)
      obtain ⟨out', there, here'⟩ := exists_of_mem_left run found
      obtain rfl := Except.ok.inj (here.symm.trans here')
      exact ⟨out, there, member⟩

/-- The derived edges are those of the functions of the nodes that are no decision nodes. -/
theorem mem_deriveEdges {nodes : List Node} {edges : List Edge}
    (derived : deriveEdges nodes = .ok edges) {e : Edge} :
    e ∈ edges ↔ ∃ n ∈ nodes, n.isDecision = false ∧ ∃ fs, n.functions = .ok fs ∧
      ∃ es ∈ fs, ∃ out, functionEdges (.text n.id) es = .ok out ∧ e ∈ out := by
  obtain ⟨outs, run, rest⟩ := bind_eq_ok.1 derived
  obtain rfl := Except.ok.inj rest
  rw [mapM_eq_ok] at run
  rw [List.mem_flatten]
  constructor
  · rintro ⟨out, there, member⟩
    obtain ⟨n, found, here⟩ := exists_of_mem_right run there
    exact ⟨n, found, (mem_nodeEdges here).1 member⟩
  · rintro ⟨n, found, h⟩
    obtain ⟨out, there, here⟩ := exists_of_mem_left run found
    exact ⟨out, there, (mem_nodeEdges here).2 h⟩

/-! ## Stored edges -/

/-- A direct edge is stored with its label and condition. -/
theorem stored_directEdge (owner name target : String) :
    (directEdge (.text owner) (.text name) (.text target)).stored =
      StoredEdge.document {
        id := "func-" ++ owner ++ "-" ++ name ++ "-" ++ target
        source := owner
        target := target
        label := some name } := by
  simp [directEdge, Edge.stored, StoredEdge.document, Document.record, Document.isNull]

/-- The edge stored for a function is that of its direct route. -/
theorem storedEdge?_of_shownIn {n : FlowNode} {f : NodeFunction} {node function : Document}
    (owner : n.ShownIn node) (shown : f.ShownIn function) (named : f.name ≠ "") :
    storedEdge? node function = .ok ((f.directEdge? n.id).map StoredEdge.document) := by
  obtain ⟨ns, rfl, id, -⟩ := owner
  obtain ⟨es, rfl, shown⟩ := shown
  have isTrue : (es.get "name").isTrue := by simp [shown.name, Document.isTrue, named]
  have decided := shown.decision
  have target : es.get "next_node_id" = .ofOption (f.target.map .text) := shown.target
  have live : (es.get "next_node_id").isTrue = (f.target.filter (· ≠ "")).isSome :=
    shown.isTrue_target
  simp only [storedEdge?, Document.entries, ok_bind, isTrue, live, Bool.and_true, id]
  cases h : f.decision with
  | some d =>
    rw [h] at decided
    obtain ⟨ds, stands, -⟩ := decided
    simp [stands, Document.isNull, NodeFunction.directEdge?, NodeFunction.directTarget?, h]
  | none =>
    rw [h] at decided
    rw [show es.get "decision" = .null from decided]
    cases t : f.target with
    | none => simp [NodeFunction.directEdge?, NodeFunction.directTarget?, h, t]
    | some t' =>
      by_cases empty : t' = ""
      · simp [NodeFunction.directEdge?, NodeFunction.directTarget?, h, t, empty, Option.filter]
      · simp [NodeFunction.directEdge?, NodeFunction.directTarget?, h, t, empty, Option.filter,
          Document.isNull, shown.name, target, Document.ofOption, stored_directEdge]

theorem storedNodeEdges_of_shownIn {n : FlowNode} {d : Document} (shown : n.ShownIn d)
    (named : ∀ f ∈ n.data.functionList, f.name ≠ "") :
    storedNodeEdges d = .ok (n.directEdges.map StoredEdge.document) := by
  obtain ⟨ds, read, items⟩ := functionItems_of_shownIn shown
  have each := mapM_of_forall₂ (forall₂_mem_right items) fun d f h =>
    storedEdge?_of_shownIn shown h.2 (named f h.1)
  simp [storedNodeEdges, read, each, FlowNode.directEdges, List.map_filterMap]

/-- The edges that a document stores when it is written anew. -/
theorem storedEdges_of_shown {ds : List Document} {ns : List FlowNode}
    (shown : List.Forall₂ FlowNode.ShownIn ds ns)
    (named : ∀ n ∈ ns, ∀ f ∈ n.data.functionList, f.name ≠ "") :
    storedEdges ds = .ok ((ns.flatMap FlowNode.directEdges).map StoredEdge.document) := by
  have each := mapM_of_forall₂ (forall₂_mem_right shown) fun d n h =>
    storedNodeEdges_of_shownIn h.2 (named n h.1)
  simp [storedEdges, each, List.flatMap_def, Function.comp_def]

end Graph
end Dialogue
