import Dialogue.Proofs.Edit.Dangling
import Dialogue.Proofs.Edit.Removal

/-!
# Deleting a node

What leads to a node stays when the node is deleted, and the check tells it: of the live routes of
the nodes that are left it finds those that led to no node before, and those that led to the deleted
one. The path of each leads to its target in the new document.
-/

namespace Dialogue

open Check (Fault)

/-! ## Live routes -/

/-- The live routes of a function, each as the fault that it is when it is lost. -/
def Site.liveRoutes (s : Site) : List Fault :=
  s.function.targetsAt.map fun t => .lostRoute s.i s.j s.node.id s.function.name t.1 t.2

namespace Flow

/-- The live routes of a flow in the order in which they are checked. -/
def liveRoutes (f : Flow) : List Fault :=
  f.nodes.zipIdx.flatMap fun n => (n.1.sites n.2).flatMap (·.liveRoutes)

variable {f : Flow} {x : Fault}

/-- Lost routes are the live routes that lead to no node. -/
theorem lostRoutes_eq (f : Flow) : f.lostRoutes = f.liveRoutes.filter (·.value ∉ f.ids) := by
  have site (s : Site) : s.lostRoutes f.ids = s.liveRoutes.filter (·.value ∉ f.ids) := by
    rw [Site.lostRoutes, Site.liveRoutes, List.filter_map]
    rfl
  simp only [lostRoutes, FlowNode.lostRoutes, liveRoutes, List.filter_flatMap, site]

/-- All live routes are enumerated with their places. -/
theorem mem_liveRoutes : x ∈ f.liveRoutes ↔ ∃ i j n g spot target,
    x = .lostRoute i j n.id g.name spot target ∧ f.nodes[i]? = some n ∧
      n.data.functionList[j]? = some g ∧ (spot, target) ∈ g.targetsAt := by
  simp only [liveRoutes, FlowNode.sites, Site.liveRoutes, List.mem_flatMap, List.mem_map,
    Prod.exists, List.mem_zipIdx_iff_getElem?]
  constructor
  · rintro ⟨n, i, node, s, ⟨g, j, function, rfl⟩, spot, target, there, rfl⟩
    exact ⟨i, j, n, g, spot, target, rfl, node, function, there⟩
  · rintro ⟨i, j, n, g, spot, target, rfl, node, function, there⟩
    exact ⟨n, i, node, _, ⟨g, j, function, rfl⟩, spot, target, there, rfl⟩

end Flow

/-- The path of a live route leads to its target in every document that shows the flow. -/
theorem Flow.ShownIn.resolve_liveRoute {f : Flow} {d : Document} (shown : f.ShownIn d) {x : Fault}
    (live : x ∈ f.liveRoutes) : d.resolve x.issue.path = some (.text x.value) := by
  obtain ⟨i, j, n, g, spot, target, rfl, node, function, there⟩ := mem_liveRoutes.1 live
  obtain ⟨y, shown, nodes⟩ := shown.at?_node node
  obtain ⟨z, shown, functions⟩ := shown.at?_function function
  rw [Fault.issue, resolve_pathOf d (Fault.slashFree_steps _)]
  exact (nodes _).trans ((functions _).trans (shown.at?_spot there))

/-! ## What is left -/

namespace Flow

/-- A flow without the nodes of an id, with the edges of the others. -/
def without (f : Flow) (id : String) : Flow :=
  let nodes := f.nodes.filter (·.id ≠ id)
  { f with nodes := nodes, edges := nodes.flatMap FlowNode.directEdges }

theorem mem_ids_without {f : Flow} {id t : String} :
    t ∈ (f.without id).ids ↔ t ∈ f.ids ∧ t ≠ id := by
  simp only [ids, without, List.mem_map, List.mem_filter, decide_eq_true_eq]
  grind

end Flow

namespace Edit

open Check (dangling)

/-- What becomes of a document whose nodes of an id are deleted: the other nodes stay, the edges are
derived from them, and all else is as it was. -/
def Deletes (id : String) (d result : Document) : Prop :=
  ∃ (es : Entries) (nodes edges : List Document), d = .map es ∧ es.get "nodes" = .list nodes ∧
    Graph.storedEdges (others id nodes) = .ok edges ∧
    result = .map ((es.put "nodes" (.list (others id nodes))).put "edges" (.list edges))

variable {id : String}

/-- A node that is there can be deleted. -/
theorem exists_delete {es : Entries} {f : Flow} (shown : f.ShownBy es) (lawful : f.Lawful)
    (known : id ∈ f.ids) : ∃ result, delete id (.map es) = .ok result ∧
      Deletes id (.map es) result ∧ (f.without id).ShownIn result := by
  obtain ⟨ds, stands, nodes⟩ := shown.nodes
  have unmanaged : Identifier.isManaged id = false :=
    Identifier.not_isManaged_of_hyphenFree (lawful.hyphenFree id known)
  have left : List.Forall₂ FlowNode.ShownIn (others id ds) (f.nodes.filter (·.id ≠ id)) :=
    shownIn_others nodes
  have edges := Graph.storedEdges_of_shown left fun n member g called => by
    have lawful := lawful.nodes n (List.mem_filter.1 member).1
    exact Identifier.ne_empty_of_isIdentifier (lawful.names g called)
  refine ⟨_, ?_, ⟨es, ds, _, rfl, stands, edges, rfl⟩, _, rfl, ⟨_, ?_, left⟩, ?_⟩
  · have there : id ∈ f.nodes.map (·.id) := known
    rw [delete_of_shownIn unmanaged stands nodes, if_pos there, withNodes, edges]
    rfl
  · rw [Entries.get_put, if_neg (by decide), Entries.get_put_self]
  · rw [Entries.get_put_self]
    exact Document.lists_listOf fun e _ => e.shownIn_document

/-- Deleting a node of a valid flow makes the check tell just the live routes of the nodes left that
led to no node before or led to that one, each at the place where its target stands. -/
theorem delete_dangling (id : String) {d : Document} {f : Flow} (checked : Flow.check d = .ok f)
    (known : id ∈ f.ids) :
    ∃ result is, delete id d = .ok result ∧ Deletes id d result ∧
      Check.routeIssues result = .ok is ∧
      dangling is = (((f.without id).liveRoutes.filter fun x =>
        x.value ∉ f.ids ∨ x.value = id).map Fault.issue) ∧
      (∀ x ∈ (f.without id).liveRoutes,
        result.resolve x.issue.path = some (.text x.value)) ∧
      ((dangling is).map (·.path)).Nodup := by
  obtain ⟨⟨es, rfl, shown⟩, lawful⟩ := Flow.shownIn_of_check checked
  obtain ⟨result, made, deletes, shows⟩ := exists_delete shown lawful known
  obtain ⟨is, found, lost⟩ := Check.dangling_routeIssues shows
  refine ⟨result, is, made, deletes, found, ?_, fun x live => shows.resolve_liveRoute live, ?_⟩
  · rw [lost, Flow.lostRoutes_eq]
    congr 1
    apply List.filter_congr
    intro x _
    have missing : x.value ∉ (f.without id).ids ↔ x.value ∉ f.ids ∨ x.value = id := by
      rw [Flow.mem_ids_without]
      grind
    simp only [missing]
  · rw [lost, List.map_map]
    apply List.Nodup.map_on
    · intro x left y right same
      exact Check.Fault.eq_of_path left right same
    · exact Flow.nodup_lostRoutes _

/-- Two nodes, one of whose functions keeps a target of its own beside its decision. -/
def forked : Flow where
  info := { name := "Forked", version := "1.0.0" }
  nodes := [
    { id := "greet"
      role := .plain
      position := ⟨0.0, 0.0⟩
      data := {
        functions := some [
          { name := "leave", description := "", target := some "close" },
          { name := "choose", description := "", target := some "close", decision := some {
              action := "result = 1"
              conditions := [⟨.less, "1", "close"⟩, ⟨.greater, "1", "greet"⟩]
              fallback := "nowhere" } }] } },
    { id := "close"
      role := .plain
      position := ⟨0.0, 0.0⟩
      data := {
        functions := some [{ name := "back", description := "", target := some "nowhere" }] } }]
  edges := []

/-- The target beside the decision is not live, and the lost route of the deleted node goes with
it. -/
theorem delete_dangling_forked : Flow.check forked.document = .ok forked ∧ "close" ∈ forked.ids ∧
    ∃ result is, delete "close" forked.document = .ok result ∧ Check.routeIssues result = .ok is ∧
      (dangling is).map (·.mark) =
        [("nextNodeExists", "/nodes/0/data/functions/0/next_node_id"),
          ("decisionDefaultExists", "/nodes/0/data/functions/1/decision/default_next_node_id"),
          ("conditionTargetExists",
            "/nodes/0/data/functions/1/decision/conditions/0/next_node_id")] := by
  have checked : Flow.check forked.document = .ok forked := rfl
  have known : "close" ∈ forked.ids := by decide
  obtain ⟨result, is, made, -, found, told, -⟩ := delete_dangling "close" checked known
  refine ⟨checked, known, result, is, made, found, ?_⟩
  rw [told]
  rfl

end Edit
end Dialogue
