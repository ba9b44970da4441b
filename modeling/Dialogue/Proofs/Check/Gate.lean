import Dialogue.Proofs.Check.Places
import Dialogue.Proofs.Flow.Reread
import Mathlib

/-!
# The gate of a normalized flow

What lets a normalized flow through is that its ids and names differ and its live routes end at
nodes: its edges repeat some of its routes. Every fault is found once, at the path of the value that
is at fault.
-/

namespace Dialogue

open Check (Fault)

/-! ## The faults that a flow has -/

namespace Flow

variable {f : Flow} {x : Fault}

theorem mem_repeatedIds : x ∈ f.repeatedIds ↔ ∃ i id, x = .repeatedId i id ∧ x.Holds f := by
  simp only [repeatedIds, List.mem_map, List.mem_filter, Prod.exists, List.mem_zipIdx_iff_getElem?,
    decide_eq_true_eq]
  constructor
  · rintro ⟨n, i, ⟨node, before⟩, rfl⟩
    exact ⟨i, n.id, rfl, n, node, rfl, before⟩
  · rintro ⟨i, id, rfl, n, node, rfl, before⟩
    exact ⟨n, i, ⟨node, before⟩, rfl⟩

theorem mem_repeatedNames :
    x ∈ f.repeatedNames ↔ ∃ i j owner name, x = .repeatedName i j owner name ∧ x.Holds f := by
  simp only [repeatedNames, FlowNode.repeatedNames, List.mem_flatMap, List.mem_map,
    List.mem_filter, Prod.exists, List.mem_zipIdx_iff_getElem?, decide_eq_true_eq]
  constructor
  · rintro ⟨n, i, node, g, j, ⟨function, before⟩, rfl⟩
    exact ⟨i, j, n.id, g.name, rfl, n, g, node, rfl, function, rfl, before⟩
  · rintro ⟨i, j, owner, name, rfl, n, g, node, rfl, function, rfl, before⟩
    exact ⟨n, i, node, g, j, ⟨function, before⟩, rfl⟩

theorem mem_looseTargets : x ∈ f.looseTargets ↔ ∃ k edge, x = .looseTarget k edge ∧ x.Holds f := by
  simp only [looseTargets, List.mem_map, List.mem_filter, Prod.exists,
    List.mem_zipIdx_iff_getElem?, decide_eq_true_eq]
  constructor
  · rintro ⟨e, k, ⟨stands, missing⟩, rfl⟩
    exact ⟨k, e, rfl, stands, missing⟩
  · rintro ⟨k, e, rfl, stands, missing⟩
    exact ⟨e, k, ⟨stands, missing⟩, rfl⟩

theorem mem_lostRoutes : x ∈ f.lostRoutes ↔
    ∃ i j owner name spot target, x = .lostRoute i j owner name spot target ∧ x.Holds f := by
  simp only [lostRoutes, FlowNode.lostRoutes, FlowNode.sites, Site.lostRoutes, List.mem_flatMap,
    List.mem_map, List.mem_filter, Prod.exists, List.mem_zipIdx_iff_getElem?, decide_eq_true_eq]
  constructor
  · rintro ⟨n, i, node, s, ⟨g, j, function, rfl⟩, spot, target, ⟨there, missing⟩, rfl⟩
    exact ⟨i, j, n.id, g.name, spot, target, rfl, n, g, node, rfl, function, rfl, there, missing⟩
  · rintro ⟨i, j, owner, name, spot, target, rfl, n, g, node, rfl, function, rfl, there, missing⟩
    exact ⟨n, i, node, _, ⟨g, j, function, rfl⟩, spot, target, ⟨there, missing⟩, rfl⟩

/-- The list of faults holds exactly those that a flow has. -/
theorem mem_faults : x ∈ f.faults ↔ x.Holds f := by
  simp only [faults, List.mem_append, mem_repeatedIds, mem_repeatedNames, mem_looseTargets,
    mem_lostRoutes]
  cases x <;> simp

end Flow

/-! ## Each fault once -/

section

variable {α β : Type}

theorem nodup_places (xs : List α) : (xs.zipIdx.map Prod.snd).Nodup := by
  rw [List.zipIdx_map_snd]
  exact List.nodup_range'

/-- What is made of items tells their places, so it comes once. -/
theorem nodup_flatMap_zipIdx {g : α × Nat → List β} (place : β → Nat) {xs : List α}
    (tells : ∀ x, ∀ b ∈ g x, place b = x.2) (each : ∀ x, (g x).Nodup) :
    (xs.zipIdx.flatMap g).Nodup := by
  refine List.nodup_flatMap.2 ⟨fun x _ => each x, ?_⟩
  refine (List.pairwise_map.1 (nodup_places xs)).imp fun {x y} apart b left right => ?_
  exact apart ((tells x b left).symm.trans (tells y b right))

/-- Items made of what stands at different places differ if they tell the place. -/
theorem nodup_map_filter_zipIdx {g : α × Nat → β} (place : β → Nat) {xs : List α}
    (p : α × Nat → Bool) (tells : ∀ x, place (g x) = x.2) :
    ((xs.zipIdx.filter p).map g).Nodup := by
  refine List.Nodup.of_map place ?_
  rw [List.map_map, show place ∘ g = Prod.snd from funext tells]
  exact (nodup_places xs).sublist (List.filter_sublist.map _)

end

namespace Check.Fault

/-- The place of the node or of the edge at fault. -/
def outer : Fault → Nat
  | repeatedId i _ | repeatedName i _ _ _ | looseTarget i _ | lostRoute i _ _ _ _ _ => i

/-- The place of the function in its node. -/
def inner : Fault → Nat
  | repeatedName _ j _ _ | lostRoute _ j _ _ _ _ => j
  | _ => 0

def spot : Fault → Spot
  | lostRoute _ _ _ _ s _ => s
  | _ => .next

end Check.Fault

theorem NodeFunction.nodup_spots (g : NodeFunction) : (g.targetsAt.map Prod.fst).Nodup := by
  cases h : g.decision with
  | none => cases t : g.directTarget? <;> simp [targetsAt, h, t]
  | some d =>
    have places : ((d.conditions.zipIdx.map Prod.snd).map Spot.condition).Nodup :=
      (nodup_places d.conditions).map fun _ _ => Spot.condition.inj
    rw [List.map_map] at places
    simp only [targetsAt, h, List.map_cons, List.map_map, List.nodup_cons]
    exact ⟨by simp, places⟩

namespace Flow

variable (f : Flow)

theorem nodup_repeatedIds : f.repeatedIds.Nodup :=
  nodup_map_filter_zipIdx Fault.outer _ fun _ => rfl

theorem nodup_looseTargets : f.looseTargets.Nodup :=
  nodup_map_filter_zipIdx Fault.outer _ fun _ => rfl

theorem nodup_repeatedNames : f.repeatedNames.Nodup := by
  refine nodup_flatMap_zipIdx Fault.outer (fun n x member => ?_) fun n =>
    nodup_map_filter_zipIdx Fault.inner _ fun _ => rfl
  obtain ⟨g, -, rfl⟩ := List.mem_map.1 member
  rfl

theorem nodup_lostRoutes : f.lostRoutes.Nodup := by
  have made {ids : List String} {s : Site} {x : Fault} (member : x ∈ s.lostRoutes ids) :
      x.outer = s.i ∧ x.inner = s.j := by
    obtain ⟨t, -, rfl⟩ := List.mem_map.1 member
    exact ⟨rfl, rfl⟩
  refine nodup_flatMap_zipIdx Fault.outer (fun n x member => ?_) fun n => ?_
  · obtain ⟨s, there, member⟩ := List.mem_flatMap.1 member
    obtain ⟨g, -, rfl⟩ := List.mem_map.1 there
    exact (made member).1
  · rw [FlowNode.lostRoutes, FlowNode.sites, List.flatMap_map]
    refine nodup_flatMap_zipIdx Fault.inner (fun g x member => (made member).2) fun g => ?_
    refine List.Nodup.of_map Fault.spot ?_
    rw [Site.lostRoutes, List.map_map]
    exact g.1.nodup_spots.sublist (List.filter_sublist.map _)

/-- No fault is listed twice. -/
theorem nodup_faults : f.faults.Nodup := by
  have apart {xs ys : List Fault} (differ : ∀ x ∈ xs, ∀ y ∈ ys, x ≠ y) : xs.Disjoint ys :=
    fun x left right => differ x left x right rfl
  refine List.nodup_append'.2 ⟨List.nodup_append'.2 ⟨List.nodup_append'.2
    ⟨f.nodup_repeatedIds, f.nodup_repeatedNames, ?_⟩, f.nodup_looseTargets, ?_⟩,
    f.nodup_lostRoutes, ?_⟩
  all_goals
    intro x left right
    simp only [List.mem_append, mem_repeatedIds, mem_repeatedNames, mem_looseTargets,
      mem_lostRoutes] at left right
    cases x <;> simp at left right

end Flow

/-! ## Where faults are -/

namespace Spot

/-- The steps of a path tell which place of a function they lead to. -/
theorem steps_inj {s s' : Spot} (same : s.steps = s'.steps) : s = s' := by
  cases s <;> cases s' <;> simp [steps] at same
  all_goals first | rfl | exact congrArg _ same

/-- Steps need no escapes in a path. -/
theorem slashFree_steps (s : Spot) : ∀ t ∈ s.steps, SlashFree t := by
  have words : SlashFree "next_node_id" ∧ SlashFree "decision" ∧ SlashFree "conditions" ∧
      SlashFree "default_next_node_id" := by simp only [SlashFree]; decide
  cases s <;> simp [steps, words, slashFree_repr]

end Spot

namespace Check.Fault

variable {f : Flow} {x y : Fault}

/-- The same for the path of any fault. -/
theorem slashFree_steps (x : Fault) : ∀ s ∈ x.steps, SlashFree s := by
  have words : SlashFree "nodes" ∧ SlashFree "id" ∧ SlashFree "data" ∧ SlashFree "functions" ∧
      SlashFree "name" ∧ SlashFree "edges" ∧ SlashFree "target" := by simp only [SlashFree]; decide
  cases x with
  | lostRoute i j owner name spot target =>
    have places : ∀ s ∈ ["nodes", i.repr, "data", "functions", j.repr], SlashFree s := by
      simp [words, slashFree_repr]
    exact fun s member => (List.mem_append.1 member).elim (places s) (spot.slashFree_steps s)
  | _ => simp [steps, words, slashFree_repr]

/-- The place of a fault tells what is at fault there. -/
theorem eq_of_steps (holds : x.Holds f) (holds' : y.Holds f) (same : x.steps = y.steps) :
    x = y := by
  cases x with
  | repeatedId i id =>
    cases y with
    | repeatedId i' id' =>
      obtain ⟨n, node, rfl, -⟩ := holds
      obtain ⟨n', node', rfl, -⟩ := holds'
      obtain rfl : i = i' := by simpa [steps] using same
      rw [Option.some.inj (node.symm.trans node')]
    | _ => simp [steps] at same
  | repeatedName i j owner name =>
    cases y with
    | repeatedName i' j' owner' name' =>
      obtain ⟨n, g, node, rfl, function, rfl, -⟩ := holds
      obtain ⟨n', g', node', rfl, function', rfl, -⟩ := holds'
      obtain ⟨rfl, rfl⟩ : i = i' ∧ j = j' := by simpa [steps] using same
      obtain rfl := Option.some.inj (node.symm.trans node')
      rw [Option.some.inj (function.symm.trans function')]
    | lostRoute i' j' owner' name' spot' target' => cases spot' <;> simp [steps, Spot.steps] at same
    | _ => simp [steps] at same
  | looseTarget k edge =>
    cases y with
    | looseTarget k' edge' =>
      obtain rfl : k = k' := by simpa [steps] using same
      rw [Option.some.inj (holds.1.symm.trans holds'.1)]
    | _ => simp [steps] at same
  | lostRoute i j owner name spot target =>
    cases y with
    | lostRoute i' j' owner' name' spot' target' =>
      obtain ⟨n, g, node, rfl, function, rfl, there, -⟩ := holds
      obtain ⟨n', g', node', rfl, function', rfl, there', -⟩ := holds'
      obtain ⟨rfl, rfl, spots⟩ : i = i' ∧ j = j' ∧ spot.steps = spot'.steps := by
        simpa [steps] using same
      obtain rfl := Spot.steps_inj spots
      obtain rfl := Option.some.inj (node.symm.trans node')
      obtain rfl := Option.some.inj (function.symm.trans function')
      have targets := List.inj_on_of_nodup_map g.nodup_spots there there' rfl
      rw [(Prod.mk.inj targets).2]
    | repeatedName i' j' owner' name' => cases spot <;> simp [steps, Spot.steps] at same
    | _ => simp [steps] at same

end Check.Fault

/-! ## What stands there -/

section

variable {f : Flow} {n : FlowNode} {g : NodeFunction}

open Document (listOf)

/-- A path into a node of the flow's document goes on in the document of the node. -/
theorem Flow.at?_node {i : Nat} (node : f.nodes[i]? = some n) (steps : List String) :
    f.document.at? ("nodes" :: i.repr :: steps) = n.document.at? steps := by
  have nodes : f.document.child? "nodes" = some (.list (f.nodes.map FlowNode.document)) :=
    Entries.get?_of_get f.get_nodes nofun
  simp [Document.at?, nodes, Document.child?_list, node]

theorem Flow.at?_edge {k : Nat} {e : StoredEdge} (edge : f.edges[k]? = some e)
    (steps : List String) :
    f.document.at? ("edges" :: k.repr :: steps) = e.document.at? steps := by
  have edges : f.document.child? "edges" = some (.list (f.edges.map StoredEdge.document)) :=
    Entries.get?_of_get f.get_edges nofun
  simp [Document.at?, edges, Document.child?_list, edge]

/-- A path into a function goes on in the document of the function. -/
theorem FlowNode.at?_function (lawful : n.Lawful) {j : Nat}
    (function : n.data.functionList[j]? = some g) (steps : List String) :
    n.document.at? ("data" :: "functions" :: j.repr :: steps) = g.document.at? steps := by
  have data : n.document.child? "data" = some (.map n.data.entries) := rfl
  have functions : (Document.map n.data.entries).child? "functions" =
      some (.list (n.data.functionList.map NodeFunction.document)) := by
    refine Entries.get?_of_get ?_ nofun
    rw [NodeData.get_functions lawful.others]
    cases h : n.data.functions with
    | none => simp [NodeData.functionList, h] at function
    | some gs => simp [NodeData.functionList, h, Document.ofOption, listOf]
  simp [Document.at?, data, functions, Document.child?_list, function]

theorem NodeFunction.at?_name : g.document.at? ["name"] = some (.text g.name) := by
  have name : g.document.child? "name" = some (.text g.name) := Entries.get?_of_get g.get_name nofun
  simp [Document.at?, name]

/-- At the place of a live target stands that target. -/
theorem NodeFunction.at?_spot {s : Spot} {t : String} (there : (s, t) ∈ g.targetsAt) :
    g.document.at? s.steps = some (.text t) :=
  g.shownIn_document.at?_spot there

end

namespace Check.Fault

/-- What stands at the place of a fault is the value at fault. -/
theorem at?_steps {f : Flow} {x : Fault} (lawful : f.Lawful) (holds : x.Holds f) :
    f.document.at? x.steps = some (.text x.value) := by
  cases x with
  | repeatedId i id =>
    obtain ⟨n, node, rfl, -⟩ := holds
    exact Flow.at?_node node ["id"]
  | repeatedName i j owner name =>
    obtain ⟨n, g, node, rfl, function, rfl, -⟩ := holds
    have lawful := lawful.nodes n (List.mem_of_getElem? node)
    exact (Flow.at?_node node _).trans ((FlowNode.at?_function lawful function _).trans
      NodeFunction.at?_name)
  | looseTarget k edge =>
    exact Flow.at?_edge holds.1 ["target"]
  | lostRoute i j owner name spot target =>
    obtain ⟨n, g, node, rfl, function, rfl, there, -⟩ := holds
    have lawful := lawful.nodes n (List.mem_of_getElem? node)
    exact (Flow.at?_node node _).trans ((FlowNode.at?_function lawful function _).trans
      (NodeFunction.at?_spot there))

end Check.Fault

/-! ## Edges and the routes that they repeat -/

/-- A direct route with the places and the name of its function, and its edge. -/
structure Direct where
  i : Nat
  j : Nat
  name : String
  edge : StoredEdge

namespace Direct

def next (r : Direct) : Fault := .lostRoute r.i r.j r.edge.source r.name .next r.edge.target

/-- Where a flow has the route. -/
def In (r : Direct) (f : Flow) : Prop :=
  ∃ n g, f.nodes[r.i]? = some n ∧ n.data.functionList[r.j]? = some g ∧ g.name = r.name ∧
    g.directEdge? n.id = some r.edge

end Direct

def FlowNode.directs (n : FlowNode) (i : Nat) : List Direct :=
  n.data.functionList.zipIdx.filterMap fun g => (g.1.directEdge? n.id).map (⟨i, g.2, g.1.name, ·⟩)

namespace Flow

def directs (f : Flow) : List Direct := f.nodes.zipIdx.flatMap fun n => n.1.directs n.2

variable {f : Flow}

/-- All direct routes with their nodes and functions are enumerated. -/
theorem mem_directs {r : Direct} : r ∈ f.directs ↔ r.In f := by
  simp only [directs, FlowNode.directs, List.mem_flatMap, List.mem_filterMap, Prod.exists,
    List.mem_zipIdx_iff_getElem?, Option.map_eq_some_iff]
  constructor
  · rintro ⟨n, i, node, g, j, function, edge, direct, rfl⟩
    exact ⟨n, g, node, function, rfl, direct⟩
  · obtain ⟨i, j, name, edge⟩ := r
    rintro ⟨n, g, node, function, rfl, direct⟩
    exact ⟨n, i, node, g, j, function, edge, direct, rfl⟩

/-- The stored edges of a normalized flow are those of its direct routes, in order. -/
theorem edges_directs : f.directs.map (·.edge) = f.nodes.flatMap FlowNode.directEdges := by
  have node (n : FlowNode) (i : Nat) : (n.directs i).map (·.edge) = n.directEdges := by
    have items : n.data.functionList.zipIdx.map Prod.fst = n.data.functionList :=
      List.zipIdx_map_fst ..
    rw [FlowNode.directEdges, ← items, List.filterMap_map, FlowNode.directs, List.map_filterMap]
    simp [Function.comp_def]
  have items : f.nodes.zipIdx.map Prod.fst = f.nodes := List.zipIdx_map_fst ..
  rw [directs, List.map_flatMap]
  simp only [node]
  rw [← List.flatMap_map Prod.fst FlowNode.directEdges, items]

/-- Of the routes of a function only a direct one makes such a fault. -/
theorem next_of_lostRoutes (ids : List String) (s : Site) :
    (s.lostRoutes ids).filter (·.keyword = "nextNodeExists") =
      (((s.function.directEdge? s.node.id).map (⟨s.i, s.j, s.function.name, ·⟩)).toList.filter
        fun r => r.edge.target ∉ ids).map Direct.next := by
  cases h : s.function.decision with
  | some d =>
    have none : s.function.directEdge? s.node.id = none := by
      simp [NodeFunction.directEdge?, NodeFunction.directTarget?, h]
    rw [none]
    refine List.filter_eq_nil_iff.2 fun x member => ?_
    obtain ⟨⟨spot, t⟩, there, rfl⟩ := List.mem_map.1 member
    have there := List.mem_of_mem_filter there
    cases spot with
    | next => simp [NodeFunction.targetsAt, h] at there
    | _ => simp [Check.Fault.keyword]
  | none =>
    cases t : s.function.directTarget? with
    | none => simp [Site.lostRoutes, NodeFunction.targetsAt, h, NodeFunction.directEdge?, t]
    | some t' =>
      by_cases member : t' ∈ ids <;>
        simp [Site.lostRoutes, NodeFunction.targetsAt, h, NodeFunction.directEdge?, t, member,
          Check.Fault.keyword, Direct.next]

/-- The direct routes to nowhere are reported as lost ones. -/
theorem nexts_directs : f.lostRoutes.filter (·.keyword = "nextNodeExists") =
    (f.directs.filter fun r => r.edge.target ∉ f.ids).map Direct.next := by
  simp only [lostRoutes, directs, FlowNode.lostRoutes, FlowNode.directs, FlowNode.sites,
    List.filterMap_eq_flatMap_toList, List.filter_flatMap, List.map_flatMap, List.flatMap_map,
    next_of_lostRoutes]

/-- The edges of these routes are reported as well, in the same order. -/
theorem looseTargets_directs (normal : f.edges = f.nodes.flatMap FlowNode.directEdges) :
    f.looseTargets = (f.directs.zipIdx.filter fun r => r.1.edge.target ∉ f.ids).map fun r =>
      .looseTarget r.2 r.1.edge := by
  rw [looseTargets, normal, ← edges_directs, List.zipIdx_map, List.filter_map, List.map_map]
  rfl

/-- Faults of one kind are all found under its keyword. -/
theorem filter_of_keyword {kind : String} {xs : List Fault} (same : ∀ x ∈ xs, x.keyword = kind)
    (k : String) : xs.filter (·.keyword = k) = if kind = k then xs else [] := by
  by_cases here : kind = k
  · rw [if_pos here]
    exact List.filter_eq_self.2 fun x member => by simp [same x member, here]
  · rw [if_neg here]
    exact List.filter_eq_nil_iff.2 fun x member => by simp [same x member, here]

/-- The faults under a keyword that is neither that of repeated ids nor that of repeated names. -/
theorem filter_faults {k : String} (noId : "uniqueNodeId" ≠ k) (noName : "uniqueFunctionName" ≠ k) :
    f.faults.filter (·.keyword = k) =
      (if "edgeTargetExists" = k then f.looseTargets else []) ++
        f.lostRoutes.filter (·.keyword = k) := by
  have ids : ∀ x ∈ f.repeatedIds, x.keyword = "uniqueNodeId" := by
    intro x member
    obtain ⟨i, id, rfl, -⟩ := mem_repeatedIds.1 member
    rfl
  have names : ∀ x ∈ f.repeatedNames, x.keyword = "uniqueFunctionName" := by
    intro x member
    obtain ⟨i, j, owner, name, rfl, -⟩ := mem_repeatedNames.1 member
    rfl
  have loose : ∀ x ∈ f.looseTargets, x.keyword = "edgeTargetExists" := by
    intro x member
    obtain ⟨k, edge, rfl, -⟩ := mem_looseTargets.1 member
    rfl
  simp only [faults, List.filter_append, filter_of_keyword ids, filter_of_keyword names,
    filter_of_keyword loose, noId, noName, if_false, List.nil_append]

/-- The faults of one keyword are one part of the list. -/
theorem filter_loose_faults :
    f.faults.filter (·.keyword = "edgeTargetExists") = f.looseTargets := by
  have lost : f.lostRoutes.filter (·.keyword = "edgeTargetExists") = [] := by
    refine List.filter_eq_nil_iff.2 fun x member => ?_
    obtain ⟨i, j, owner, name, spot, target, rfl, -⟩ := mem_lostRoutes.1 member
    cases spot <;> simp [Check.Fault.keyword]
  rw [filter_faults (by decide) (by decide), lost, if_pos rfl, List.append_nil]

theorem filter_next_faults : f.faults.filter (·.keyword = "nextNodeExists") =
    f.lostRoutes.filter (·.keyword = "nextNodeExists") := by
  rw [filter_faults (by decide) (by decide), if_neg (by decide), List.nil_append]

end Flow

/-! ## The gate -/

namespace Check

/-- No fault is about the source of an edge. -/
theorem Fault.keyword_ne_source (x : Fault) : x.keyword ≠ "edgeSourceExists" := by
  cases x with
  | lostRoute i j owner name spot target => cases spot <;> simp [keyword]
  | _ => simp [keyword]

/-- The first issue is about the edge of a function, the second about its target. -/
def Twins (f : Flow) (e r : RouteIssue) : Prop :=
  ∃ k i j n g edge, f.edges[k]? = some edge ∧ f.nodes[i]? = some n ∧
    n.data.functionList[j]? = some g ∧ g.directEdge? n.id = some edge ∧
    e = (Fault.looseTarget k edge).issue ∧
    r = (Fault.lostRoute i j n.id g.name .next edge.target).issue

/-- What holds of the issues of a normalized flow. -/
structure Exact (f : Flow) (issues : List RouteIssue) : Prop where
  /-- The errors are the faults that the flow has, each found once. -/
  faults : ∃ faults : List Fault, faults.Nodup ∧ (∀ x, x ∈ faults ↔ x.Holds f) ∧
    issues.filter (·.severity = .error) = faults.map Fault.issue
  sources : ∀ i ∈ issues, i.keyword ≠ "edgeSourceExists"
  /-- Edges are at fault where the direct routes are that they repeat, in the same order. -/
  twins : List.Forall₂ (Twins f) (issues.filter (·.keyword = "edgeTargetExists"))
    (issues.filter (·.keyword = "nextNodeExists"))
  located : ∀ i ∈ issues, i.severity = .error →
    ∃ x : Fault, x.Holds f ∧ i = x.issue ∧ f.document.resolve i.path = some (.text x.value)
  paths : ((issues.filter (·.severity = .error)).map (·.path)).Nodup

/-- Loose edges and lost direct routes of a normalized flow come in pairs. -/
theorem twins_of_normal {f : Flow} (normal : f.edges = f.nodes.flatMap FlowNode.directEdges) :
    List.Forall₂ (Twins f) (f.looseTargets.map Fault.issue)
      ((f.lostRoutes.filter (·.keyword = "nextNodeExists")).map Fault.issue) := by
  have nexts : f.lostRoutes.filter (·.keyword = "nextNodeExists") =
      (f.directs.zipIdx.filter fun r => r.1.edge.target ∉ f.ids).map fun r => r.1.next := by
    have items : f.directs.zipIdx.map Prod.fst = f.directs := List.zipIdx_map_fst ..
    rw [Flow.nexts_directs]
    nth_rewrite 1 [← items]
    rw [List.filter_map, List.map_map]
    rfl
  rw [Flow.looseTargets_directs normal, nexts, List.map_map, List.map_map,
    List.forall₂_map_left_iff, List.forall₂_map_right_iff, List.forall₂_same]
  rintro ⟨r, k⟩ member
  have stands := List.mem_zipIdx_iff_getElem?.1 (List.mem_of_mem_filter member)
  obtain ⟨n, g, node, function, named, direct⟩ :=
    Flow.mem_directs.1 (List.mem_of_getElem? stands)
  have edge : f.edges[k]? = some r.edge := by
    rw [normal, ← Flow.edges_directs, List.getElem?_map, stands]
    rfl
  have owner : r.edge.source = n.id := by
    obtain ⟨t, -, made⟩ := Option.map_eq_some_iff.1 direct
    rw [← made]
  refine ⟨k, r.i, r.j, n, g, r.edge, edge, node, function, direct, rfl, ?_⟩
  rw [named, ← owner]
  rfl

/-- Edges made of routes start at the nodes that have them. -/
theorem sources_of_normal {f : Flow} (normal : f.edges = f.nodes.flatMap FlowNode.directEdges) :
    ∀ e ∈ f.edges, e.source ∈ f.ids := by
  intro e member
  rw [normal] at member
  obtain ⟨n, there, member⟩ := List.mem_flatMap.1 member
  obtain ⟨g, -, direct⟩ := List.mem_filterMap.1 member
  obtain ⟨t, -, rfl⟩ := Option.map_eq_some_iff.1 direct
  exact List.mem_map_of_mem there

theorem exact_of_normal {f : Flow} (lawful : f.Lawful)
    (normal : f.edges = f.nodes.flatMap FlowNode.directEdges) :
    ∃ issues, routeIssues f.document = .ok issues ∧ Exact f issues := by
  obtain ⟨warnings, run, warn⟩ := routeIssues_document lawful (sources_of_normal normal)
  have errors : (f.faults.map Fault.issue ++ warnings).filter (·.severity = .error) =
      f.faults.map Fault.issue := by
    rw [List.filter_append, List.filter_eq_self.2, List.filter_eq_nil_iff.2, List.append_nil]
    · exact fun i member => by simp [(warn i member).1]
    · intro i member
      obtain ⟨x, -, rfl⟩ := List.mem_map.1 member
      rfl
  have keyed (k : String) (other : "singleInitialNode" ≠ k) :
      (f.faults.map Fault.issue ++ warnings).filter (·.keyword = k) =
        (f.faults.filter (·.keyword = k)).map Fault.issue := by
    have none : warnings.filter (·.keyword = k) = [] :=
      List.filter_eq_nil_iff.2 fun i member => by simp [(warn i member).2, other]
    rw [List.filter_append, none, List.append_nil, List.filter_map]
    rfl
  refine ⟨_, run, ?_, ?_, ?_, ?_, ?_⟩
  · exact ⟨f.faults, f.nodup_faults, fun _ => Flow.mem_faults, errors⟩
  · intro i member
    rcases List.mem_append.1 member with member | member
    · obtain ⟨x, -, rfl⟩ := List.mem_map.1 member
      exact x.keyword_ne_source
    · rw [(warn i member).2]
      decide
  · rw [keyed _ (by decide), keyed _ (by decide), Flow.filter_loose_faults,
      Flow.filter_next_faults]
    exact twins_of_normal normal
  · intro i member error
    have member : i ∈ f.faults.map Fault.issue := by
      rw [← errors]
      exact List.mem_filter.2 ⟨member, by simpa using error⟩
    obtain ⟨x, there, rfl⟩ := List.mem_map.1 member
    have holds := Flow.mem_faults.1 there
    refine ⟨x, holds, rfl, ?_⟩
    exact (resolve_pathOf _ x.slashFree_steps).trans (Fault.at?_steps lawful holds)
  · rw [errors, List.map_map]
    refine f.nodup_faults.map_on fun x hx y hy same => ?_
    exact Fault.eq_of_steps (Flow.mem_faults.1 hx) (Flow.mem_faults.1 hy)
      (pathOf_inj x.slashFree_steps y.slashFree_steps same)

/-- Normalizing changes nothing that the gate asks for. -/
theorem whole_normalize {f : Flow} : f.normalize.Whole ↔ f.ids.Nodup ∧
    (∀ n ∈ f.nodes, (n.data.functionList.map (·.name)).Nodup) ∧
    ∀ n ∈ f.nodes, ∀ g ∈ n.data.functionList, ∀ t ∈ g.routes, t ∈ f.ids := by
  have ids : f.normalize.ids = f.ids := f.ids_normalize
  have names : (∀ n ∈ f.normalize.nodes, (n.data.functionList.map (·.name)).Nodup) ↔
      ∀ n ∈ f.nodes, (n.data.functionList.map (·.name)).Nodup := List.forall_mem_map
  have routes : (∀ n ∈ f.normalize.nodes, ∀ g ∈ n.data.functionList, ∀ t ∈ g.routes, t ∈ f.ids) ↔
      ∀ n ∈ f.nodes, ∀ g ∈ n.data.functionList, ∀ t ∈ g.routes, t ∈ f.ids := List.forall_mem_map
  constructor
  · intro whole
    exact ⟨ids ▸ whole.ids, names.1 whole.names, routes.1 (ids ▸ whole.routes)⟩
  · rintro ⟨differ, called, ends⟩
    have edges := Flow.ends_of_directEdges (fun n there => List.mem_map_of_mem there) ends
    exact ⟨ids ▸ differ, names.2 called, ids.symm ▸ edges, ids.symm ▸ routes.2 ends⟩

/-- A normalized flow is let through just when its ids and names differ and its live routes end at
nodes, whatever edges were stored before; what else the check finds is told at its place. -/
theorem gate_exact {d : Document} {f : Flow} (accepted : Flow.check d = .ok f) :
    ((∃ g, exportable f.normalize.document = .ok g) ↔ f.ids.Nodup ∧
      (∀ n ∈ f.nodes, (n.data.functionList.map (·.name)).Nodup) ∧
      ∀ n ∈ f.nodes, ∀ g ∈ n.data.functionList, ∀ t ∈ g.routes, t ∈ f.ids) ∧
    (∀ edges, { f with edges }.normalize = f.normalize) ∧
    ∃ issues, routeIssues f.normalize.document = .ok issues ∧ Exact f.normalize issues := by
  have lawful := (Flow.shownIn_of_check accepted).2.normalize
  have normal : f.normalize.edges = f.normalize.nodes.flatMap FlowNode.directEdges := by
    rw [Flow.normalize, List.flatMap_map]
    rfl
  refine ⟨?_, fun _ => rfl, exact_of_normal lawful normal⟩
  rw [← whole_normalize]
  constructor
  · rintro ⟨g, passes⟩
    obtain ⟨read, whole⟩ := exportable_eq_ok.1 passes
    rwa [Except.ok.inj ((Flow.check_normalize accepted).symm.trans read)]
  · exact fun whole => ⟨_, exportable_eq_ok.2 ⟨Flow.check_normalize accepted, whole⟩⟩

/-- Two nodes of one id; the first leads to a node that is not there, and has two functions of one
name. -/
def faulty : Flow where
  info := { name := "Faulty", version := "1.0.0" }
  nodes := [
    { id := "greet"
      role := .plain
      position := ⟨0.0, 0.0⟩
      data := {
        functions := some [
          { name := "leave", description := "", target := some "nowhere" },
          { name := "leave", description := "" }] } },
    { id := "greet", role := .plain, position := ⟨0.0, 0.0⟩, data := {} }]
  edges := []

theorem gate_faulty : Flow.check faulty.document = .ok faulty ∧
    (¬ ∃ g, exportable faulty.normalize.document = .ok g) ∧
    ∃ issues, routeIssues faulty.normalize.document = .ok issues ∧
      issues.map (·.path) = ["/nodes/1/id", "/nodes/0/data/functions/1/name", "/edges/0/target",
        "/nodes/0/data/functions/0/next_node_id"] ∧ Exact faulty.normalize issues := by
  have accepted : Flow.check faulty.document = .ok faulty := rfl
  obtain ⟨gate, -, issues, run, exact⟩ := gate_exact accepted
  refine ⟨accepted, ?_, issues, run, ?_, exact⟩
  · rw [gate]
    decide
  · obtain rfl := Except.ok.inj run
    rfl

end Check
end Dialogue
