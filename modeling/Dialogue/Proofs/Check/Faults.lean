import Dialogue.Proofs.Check.Routing
import Dialogue.Proofs.Document.Path
import Dialogue.Proofs.Flow.Writing
import Dialogue.Proofs.Graph.Routes

/-!
# The faults of a flow

Each error that the check finds in a flow's document is a fault of the flow: a repeated id or name,
or a target that is no node. Its path leads to the value that is at fault, and no other error has
that path.
-/

namespace Dialogue

/-! ## Places in a flow -/

/-- Where in a function a target stands. -/
inductive Spot where
  | next
  | fallback
  | condition (index : Nat)
deriving DecidableEq

/-- The live targets of a function in the order in which they are checked. -/
def NodeFunction.targetsAt (f : NodeFunction) : List (Spot × String) :=
  match f.decision with
  | some d =>
      (.fallback, d.fallback) :: d.conditions.zipIdx.map fun c => (.condition c.2, c.1.target)
  | none => f.directTarget?.toList.map fun t => (.next, t)

/-- A function with its node and the places of both. -/
structure Site where
  node : FlowNode
  i : Nat
  function : NodeFunction
  j : Nat

def FlowNode.sites (n : FlowNode) (i : Nat) : List Site :=
  n.data.functionList.zipIdx.map fun g => ⟨n, i, g.1, g.2⟩

def Spot.steps : Spot → List String
  | .next => ["next_node_id"]
  | .fallback => ["decision", "default_next_node_id"]
  | .condition k => ["decision", "conditions", k.repr, "next_node_id"]

namespace Check

/-! ## Faults and their issues -/

/-- A fault with its place and the values that it is about. -/
inductive Fault where
  | repeatedId (i : Nat) (id : String)
  | repeatedName (i j : Nat) (owner name : String)
  | looseTarget (k : Nat) (edge : StoredEdge)
  | lostRoute (i j : Nat) (owner name : String) (spot : Spot) (target : String)

namespace Fault

/-- The steps to the value that is at fault. -/
def steps : Fault → List String
  | repeatedId i _ => ["nodes", i.repr, "id"]
  | repeatedName i j _ _ => ["nodes", i.repr, "data", "functions", j.repr, "name"]
  | looseTarget k _ => ["edges", k.repr, "target"]
  | lostRoute i j _ _ spot _ => ["nodes", i.repr, "data", "functions", j.repr] ++ spot.steps

/-- The id, the name or the target that is at fault. -/
def value : Fault → String
  | repeatedId _ id => id
  | repeatedName _ _ _ name => name
  | looseTarget _ edge => edge.target
  | lostRoute _ _ _ _ _ target => target

def keyword : Fault → String
  | repeatedId .. => "uniqueNodeId"
  | repeatedName .. => "uniqueFunctionName"
  | looseTarget .. => "edgeTargetExists"
  | lostRoute _ _ _ _ .next _ => "nextNodeExists"
  | lostRoute _ _ _ _ .fallback _ => "decisionDefaultExists"
  | lostRoute _ _ _ _ (.condition _) _ => "conditionTargetExists"

/-- What the message says before the value. -/
def title : Fault → String
  | repeatedId .. => "Duplicate node id: "
  | repeatedName _ _ owner _ => "Duplicate function name in node " ++ owner ++ ": "
  | looseTarget .. => "Edge target not found: "
  | lostRoute _ _ _ _ .next _ => "Function target not found: "
  | lostRoute _ _ _ _ .fallback _ => "Decision default target not found: "
  | lostRoute _ _ _ _ (.condition _) _ => "Decision condition target not found: "

/-- What the parameters tell beside the value. -/
def context : Fault → List (String × Document)
  | lostRoute _ _ _ name (.condition k) _ => [("function", .text name), ("condition", .int k)]
  | lostRoute _ _ _ name _ _ => [("function", .text name)]
  | _ => []

/-- The name of the parameter that tells the value. -/
def subject : Fault → String
  | repeatedId .. => "id"
  | repeatedName .. => "name"
  | looseTarget .. | lostRoute .. => "target"

def nodeId : Fault → Document
  | repeatedId _ id => .text id
  | repeatedName _ _ owner _ | lostRoute _ _ owner _ _ _ => .text owner
  | looseTarget .. => .null

def edgeId : Fault → Document
  | looseTarget _ edge => .text edge.id
  | _ => .null

def issue (x : Fault) : RouteIssue where
  path := pathOf x.steps
  keyword := x.keyword
  message := x.title ++ x.value
  params := (x.subject, .text x.value) :: x.context
  nodeId := x.nodeId
  edgeId := x.edgeId

/-- Whether a flow has the fault. -/
def Holds (f : Flow) : Fault → Prop
  | repeatedId i id => ∃ n, f.nodes[i]? = some n ∧ n.id = id ∧ ∃ m ∈ f.nodes.take i, m.id = id
  | repeatedName i j owner name => ∃ n g, f.nodes[i]? = some n ∧ n.id = owner ∧
      n.data.functionList[j]? = some g ∧ g.name = name ∧
      ∃ h ∈ n.data.functionList.take j, h.name = name
  | looseTarget k edge => f.edges[k]? = some edge ∧ edge.target ∉ f.ids
  | lostRoute i j owner name spot target => ∃ n g, f.nodes[i]? = some n ∧ n.id = owner ∧
      n.data.functionList[j]? = some g ∧ g.name = name ∧ (spot, target) ∈ g.targetsAt ∧
      target ∉ f.ids

end Fault

/-! ## All faults -/

end Check

open Check (Fault)

def Site.lostRoutes (ids : List String) (s : Site) : List Fault :=
  (s.function.targetsAt.filter fun t => t.2 ∉ ids).map fun t =>
    .lostRoute s.i s.j s.node.id s.function.name t.1 t.2

namespace FlowNode

variable (n : FlowNode) (i : Nat)

def repeatedNames : List Fault :=
  (n.data.functionList.zipIdx.filter fun g =>
    g.1.name ∈ (n.data.functionList.take g.2).map (·.name)).map fun g =>
      .repeatedName i g.2 n.id g.1.name

def lostRoutes (ids : List String) : List Fault := (n.sites i).flatMap (·.lostRoutes ids)

end FlowNode

namespace Flow

variable (f : Flow)

def repeatedIds : List Fault :=
  (f.nodes.zipIdx.filter fun n => n.1.id ∈ (f.nodes.take n.2).map (·.id)).map fun n =>
    .repeatedId n.2 n.1.id

def repeatedNames : List Fault := f.nodes.zipIdx.flatMap fun n => n.1.repeatedNames n.2

def looseTargets : List Fault :=
  (f.edges.zipIdx.filter fun e => e.1.target ∉ f.ids).map fun e => .looseTarget e.2 e.1

def lostRoutes : List Fault := f.nodes.zipIdx.flatMap fun n => n.1.lostRoutes n.2 f.ids

/-- The faults in the order in which they are found. -/
def faults : List Fault := f.repeatedIds ++ f.repeatedNames ++ f.looseTargets ++ f.lostRoutes

end Flow

/-! ## What the check finds -/

namespace Check

variable {α : Type}

/-- Repeated names are those that come among the names before. -/
theorem repeats_texts (key : Document → Loose Document) (write : α → Document) (name : α → String)
    {xs : List α} (keyed : ∀ x ∈ xs, key (write x) = .ok (.text (name x))) (seen : List String)
    (place : Nat) : repeats key (seen.map .text) place (xs.map write) =
      .ok (((xs.zipIdx place).filter fun x =>
        name x.1 ∈ seen ∨ name x.1 ∈ (xs.take (x.2 - place)).map name).map fun x =>
          (x.2, .text (name x.1))) := by
  induction xs generalizing seen place with
  | nil => rfl
  | cons x xs ih =>
    have rest := ih (fun y member => keyed y (.tail _ member)) (name x :: seen) (place + 1)
    rw [List.map_cons] at rest
    have later : (xs.zipIdx (place + 1)).filter (fun y =>
          name y.1 ∈ seen ∨ name y.1 ∈ ((x :: xs).take (y.2 - place)).map name) =
        (xs.zipIdx (place + 1)).filter fun y =>
          name y.1 ∈ name x :: seen ∨ name y.1 ∈ (xs.take (y.2 - (place + 1))).map name := by
      refine List.filter_congr fun y member => ?_
      have past := List.le_snd_of_mem_zipIdx member
      obtain ⟨k, step⟩ : ∃ k, y.2 - place = k + 1 := ⟨y.2 - place - 1, by omega⟩
      have before : y.2 - (place + 1) = k := by omega
      simp only [step, before, List.take_succ_cons, List.map_cons, List.mem_cons]
      grind
    simp only [List.map_cons, repeats, keyed x (.head _), ok_bind, Document.asKey, rest, has_texts,
      List.zipIdx_cons, List.filter_cons, later, Nat.sub_self, List.take_zero, List.map_nil,
      List.not_mem_nil, or_false]
    split <;> rfl

/-! ### Issues of faults -/

theorem nodePath_eq (i : Nat) : nodePath i = pathOf ["nodes", i.repr] := by
  rw [← String.toList_inj]
  simp [nodePath, pathOf]

theorem functionPath_eq (i j : Nat) :
    functionPath i j = pathOf ["nodes", i.repr, "data", "functions", j.repr] := by
  rw [← String.toList_inj]
  simp [functionPath, nodePath, pathOf]

theorem pathOf_append (steps steps' : List String) :
    pathOf steps ++ pathOf steps' = pathOf (steps ++ steps') := by
  rw [← String.toList_inj]
  simp [pathOf]

/-- The issue that the check makes of a repeated id is the one of the fault. -/
theorem issue_repeatedId (i : Nat) (id : String) :
    nodeIdIssue (i, .text id) = (Fault.repeatedId i id).issue := by
  have path : nodePath i ++ "/id" = pathOf ["nodes", i.repr, "id"] := by
    rw [nodePath_eq]
    exact pathOf_append _ ["id"]
  rw [nodeIdIssue, path, Document.display_text]
  rfl

theorem issue_repeatedName (i j : Nat) (owner name : String) :
    functionNameIssue i (.text owner) (j, .text name) =
      (Fault.repeatedName i j owner name).issue := by
  have path : functionPath i j ++ "/name" = pathOf (Fault.repeatedName i j owner name).steps := by
    rw [functionPath_eq]
    exact pathOf_append _ ["name"]
  rw [functionNameIssue, path, Document.display_text, Document.display_text]
  rfl

/-- An edge whose target is missing gives the issue of its fault. -/
theorem issue_looseTarget (k : Nat) {es : Entries} {e : StoredEdge}
    (target : es.get "target" = .text e.target) (id : es.get "id" = .text e.id) :
    edgeEndIssue k "target" "edgeTargetExists" "Edge target" es =
      (Fault.looseTarget k e).issue := by
  have path : "/edges/" ++ toString k ++ "/" ++ "target" = pathOf ["edges", k.repr, "target"] := by
    rw [← String.toList_inj]
    simp [pathOf]
  rw [edgeEndIssue, path, target, id, Document.display_text]
  rfl

/-- The issue that is made of a target where it stands. -/
def spotIssue (p : Place) : Spot → Document → RouteIssue
  | .next => targetIssue p
  | .fallback => fallbackIssue p
  | .condition k => conditionIssue p k

theorem spotIssue_path (p : Place) (spot : Spot) (target : Document) :
    (spotIssue p spot target).path = p.path ++ pathOf spot.steps := by
  cases spot with
  | condition k =>
    rw [← String.toList_inj]
    simp [spotIssue, conditionIssue, Spot.steps, pathOf]
  | _ => rfl

/-- A route to nowhere gives the issue of its fault, whatever place of the function it stands at. -/
theorem issue_lostRoute (i j : Nat) (owner name : String) {es : Entries}
    (called : es.get "name" = .text name) (spot : Spot) (target : String) :
    spotIssue ⟨functionPath i j, .text owner, es⟩ spot (.text target) =
      (Fault.lostRoute i j owner name spot target).issue := by
  have path := spotIssue_path ⟨functionPath i j, .text owner, es⟩ spot (.text target)
  rw [functionPath_eq, pathOf_append] at path
  rw [functionPath_eq]
  cases spot with
  | next =>
    simp only [spotIssue, targetIssue] at path ⊢
    rw [path, Place.params, called, Document.display_text]
    rfl
  | fallback =>
    simp only [spotIssue, fallbackIssue] at path ⊢
    rw [path, Place.params, called, Document.display_text]
    rfl
  | condition k =>
    simp only [spotIssue, conditionIssue] at path ⊢
    rw [path, Place.params, called, Document.display_text]
    rfl

/-! ### What the parts of the check find -/

theorem functionItems_document {n : FlowNode} (lawful : n.Lawful) :
    Graph.functionItems n.document = .ok (n.data.functionList.map NodeFunction.document) := by
  have data : n.document.field "data" = .ok (.map n.data.entries) := rfl
  have maps : (Document.map n.data.entries).Maps n.data.entries := .inr rfl
  simp only [Graph.functionItems, data, ok_bind, maps.entriesOrNone,
    NodeData.get_functions lawful.others, NodeData.functionList]
  cases n.data.functions with
  | none => rfl
  | some fs => exact Document.elementsOrNone_list _

/-- The names that a node repeats are reported at the functions that repeat them. -/
theorem functionNameIssues_document {n : FlowNode} (lawful : n.Lawful) (i : Nat) :
    functionNameIssues (n.document, i) = .ok ((n.repeatedNames i).map Fault.issue) := by
  have owner : n.document.field "id" = .ok (.text n.id) := rfl
  have found := repeats_texts (·.field "name") NodeFunction.document (fun g => g.name)
    (fun g (_ : g ∈ n.data.functionList) => g.shownIn_document.field_name) [] 0
  rw [List.map_nil] at found
  simp [functionNameIssues, functionItems_document lawful, owner, found, FlowNode.repeatedNames,
    Function.comp_def, issue_repeatedName]

theorem edgeIssues_document {ids : List String} {e : StoredEdge} (source : e.source ∈ ids)
    (k : Nat) : edgeIssues (ids.map .text) (e.document, k) =
      .ok ((if e.target ∉ ids then [Fault.looseTarget k e] else []).map Fault.issue) := by
  obtain ⟨es, stands, id, source', target⟩ : ∃ es : Entries, e.document = .map es ∧
      es.get "id" = .text e.id ∧ es.get "source" = .text e.source ∧
      es.get "target" = .text e.target :=
    ⟨_, rfl, by simp [Entries.get], by simp [Entries.get], by simp [Entries.get]⟩
  have sources : edgeEndIssues (ids.map .text) k "source" "edgeSourceExists" "Edge source" es =
      .ok [] := by
    simp [edgeEndIssues, source', isMissing_text, source]
  have targets : edgeEndIssues (ids.map .text) k "target" "edgeTargetExists" "Edge target" es =
      .ok ((if e.target ∉ ids then [Fault.looseTarget k e] else []).map Fault.issue) := by
    by_cases member : e.target ∈ ids <;>
      simp [edgeEndIssues, target, isMissing_text, member, issue_looseTarget k target id]
  simp [edgeIssues, stands, Document.entries, sources, targets]

theorem issueIfMissing_text (ids : List String) (issue : Document → RouteIssue) (target : String) :
    issueIfMissing (ids.map .text) issue (.text target) =
      .ok (if target ∉ ids then [issue (.text target)] else []) := by
  by_cases member : target ∈ ids <;> simp [issueIfMissing, isMissing_text, member]

/-- What is found one by one is found of the items where there is something to find. -/
theorem flatten_ifs {β : Type} (p : α → Prop) [DecidablePred p] (g : α → β) (xs : List α) :
    (xs.map fun x => if p x then [g x] else []).flatten = (xs.filter p).map g := by
  induction xs with
  | nil => rfl
  | cons x xs ih => by_cases h : p x <;> simp [h, ih]

/-- A decision is checked from its fallback on, then condition by condition. -/
theorem decisionIssues_of_shownBy (ids : List String) (p : Place) {x : Decision} {es : Entries}
    (shown : x.ShownBy es) : decisionIssues (ids.map .text) p es =
      .ok ((((Spot.fallback, x.fallback) :: x.conditions.zipIdx.map fun c =>
        (Spot.condition c.2, c.1.target)).filter fun t => t.2 ∉ ids).map fun t =>
          spotIssue p t.1 (.text t.2)) := by
  have fallback : es.get "default_next_node_id" = .text x.fallback := shown.fallback
  obtain ⟨ds, read, items⟩ := shown.conditions.elementsOrNone
  have branches : ds.zipIdx.mapM (conditionIssues (ids.map .text) p) =
      .ok (x.conditions.zipIdx.map fun c =>
        if c.1.target ∉ ids then [conditionIssue p c.2 (.text c.1.target)] else []) := by
    refine mapM_of_forall₂ (forall₂_zipIdx_zipIdx items 0) ?_
    rintro ⟨d, k⟩ ⟨c, k'⟩ ⟨⟨es, rfl, target⟩, rfl : k = k'⟩
    have field : (Document.map es).field "next_node_id" = .ok (.text c.target) := by
      rw [← target]
      rfl
    rw [conditionIssues, field, ok_bind, issueIfMissing_text]
  simp only [decisionIssues, fallback, issueIfMissing_text, ok_bind, read, branches,
    flatten_ifs (fun c : Condition × Nat => c.1.target ∉ ids), List.filter_cons, List.filter_map]
  by_cases member : x.fallback ∈ ids <;> simp [member, spotIssue, Function.comp_def]

/-- All live targets are looked up, in the order in which they are checked. -/
theorem functionIssues_of_shownBy (ids : List String) (p : Place) {g : NodeFunction}
    (shown : g.ShownBy p.function) : functionIssues (ids.map .text) p =
      .ok ((g.targetsAt.filter fun t => t.2 ∉ ids).map fun t => spotIssue p t.1 (.text t.2)) := by
  have target : p.function.get "next_node_id" = .ofOption (g.target.map .text) := shown.target
  have decided := shown.decision
  simp only [functionIssues, decided.isTrue, target, NodeFunction.targetsAt]
  cases h : g.decision with
  | some d =>
    rw [h] at decided
    obtain ⟨es, stands, shows⟩ := decided
    simp [stands, Document.entries, decisionIssues_of_shownBy ids p shows]
  | none =>
    cases t : g.target with
    | none => simp [NodeFunction.directTarget?, h, t, Document.ofOption, Document.isTrue]
    | some t' =>
      by_cases empty : t' = ""
      · simp [NodeFunction.directTarget?, h, t, empty, Document.ofOption, Document.isTrue]
      · by_cases member : t' ∈ ids <;>
          simp [NodeFunction.directTarget?, h, t, empty, Document.ofOption, Document.isTrue,
            issueIfMissing_text, member, spotIssue]

theorem functionIssues_site (ids : List String) (s : Site) {es : Entries}
    (shown : s.function.ShownBy es) :
    functionIssues (ids.map .text) ⟨functionPath s.i s.j, .text s.node.id, es⟩ =
      .ok ((s.lostRoutes ids).map Fault.issue) := by
  rw [functionIssues_of_shownBy ids _ shown, Site.lostRoutes, List.map_map]
  refine congrArg Except.ok (List.map_congr_left fun t _ => ?_)
  exact issue_lostRoute s.i s.j s.node.id s.function.name shown.name t.1 t.2

/-- A node reports its lost routes, function by function. -/
theorem nodeIssues_of_shownIn (ids : List String) {n : FlowNode} {d : Document}
    (shown : n.ShownIn d) (i : Nat) :
    nodeIssues (ids.map .text) (d, i) = .ok ((n.lostRoutes i ids).map Fault.issue) := by
  obtain ⟨ds, read, items⟩ := Graph.functionItems_of_shownIn shown
  have each : ds.zipIdx.mapM (fun f => do
      functionIssues (ids.map .text) ⟨functionPath i f.2, .text n.id, ← f.1.entries⟩) =
      .ok ((n.sites i).map fun s => (s.lostRoutes ids).map Fault.issue) := by
    rw [FlowNode.sites, List.map_map]
    refine mapM_of_forall₂ (forall₂_zipIdx_zipIdx items 0) ?_
    rintro ⟨d, j⟩ ⟨g, j'⟩ ⟨⟨es, rfl, shows⟩, rfl : j = j'⟩
    exact functionIssues_site ids ⟨n, i, g, j⟩ shows
  simp [nodeIssues, shown.field_id, read, each, FlowNode.lostRoutes, List.flatMap_def,
    List.map_flatten, Function.comp_def]

/-- How many nodes are initial is only warned of. -/
theorem warning_of_mem_initialIssues {nodes : List Document} {is : List RouteIssue}
    (run : initialIssues nodes = .ok is) {i : RouteIssue} (member : i ∈ is) :
    i.severity = .warning ∧ i.keyword = "singleInitialNode" := by
  obtain ⟨initial, -, run⟩ := bind_eq_ok.1 run
  obtain ⟨ids, -, run⟩ := bind_eq_ok.1 run
  split at run
  · obtain rfl := Except.ok.inj run
    cases member
  · obtain rfl := Except.ok.inj run
    obtain ⟨extra, -, rfl⟩ := List.mem_map.1 member
    exact ⟨rfl, rfl⟩

/-- The check finds the faults of a flow whose edges start at nodes, and but for these it only
warns. -/
theorem routeIssues_document {f : Flow} (lawful : f.Lawful)
    (sources : ∀ e ∈ f.edges, e.source ∈ f.ids) :
    ∃ warnings, routeIssues f.document = .ok (f.faults.map Fault.issue ++ warnings) ∧
      ∀ i ∈ warnings, i.severity = .warning ∧ i.keyword = "singleInitialNode" := by
  have shown := FlowNode.shownIn_documents fun n member => (lawful.nodes n member).writable
  obtain ⟨warnings, initial, -⟩ := clear_initialIssues shown
  refine ⟨warnings, ?_, fun i member => warning_of_mem_initialIssues initial member⟩
  have repeated := repeats_texts (·.field "id") FlowNode.document FlowNode.id
    (fun n (_ : n ∈ f.nodes) => rfl) [] 0
  have names : (f.nodes.map FlowNode.document).zipIdx.mapM functionNameIssues =
      .ok (f.nodes.zipIdx.map fun n => (n.1.repeatedNames n.2).map Fault.issue) := by
    rw [List.zipIdx_map]
    exact mapM_map_eq_map fun n member =>
      functionNameIssues_document (lawful.nodes _ (List.fst_mem_of_mem_zipIdx member)) n.2
  have ids : (f.nodes.map FlowNode.document).mapM (fun n => do (← n.field "id").asKey) =
      .ok (f.ids.map .text) := by
    rw [Flow.ids, List.map_map]
    exact mapM_map_eq_map fun _ _ => rfl
  have ends : (f.edges.map StoredEdge.document).zipIdx.mapM (edgeIssues (f.ids.map .text)) =
      .ok (f.edges.zipIdx.map fun e =>
        (if e.1.target ∉ f.ids then [Fault.looseTarget e.2 e.1] else []).map Fault.issue) := by
    rw [List.zipIdx_map]
    exact mapM_map_eq_map fun e member =>
      edgeIssues_document (sources _ (List.fst_mem_of_mem_zipIdx member)) e.2
  have routes : (f.nodes.map FlowNode.document).zipIdx.mapM (nodeIssues (f.ids.map .text)) =
      .ok (f.nodes.zipIdx.map fun n => (n.1.lostRoutes n.2 f.ids).map Fault.issue) := by
    rw [List.zipIdx_map]
    exact mapM_map_eq_map fun n member => nodeIssues_of_shownIn f.ids (FlowNode.shownIn_document
      (lawful.nodes _ (List.fst_mem_of_mem_zipIdx member)).writable) n.2
  have nodes : f.entries.get "nodes" = .list (f.nodes.map FlowNode.document) := f.get_nodes
  have edges : f.entries.get "edges" = .list (f.edges.map StoredEdge.document) := f.get_edges
  rw [List.map_nil] at repeated
  simp only [routeIssues, Flow.document_eq, Document.entries, ok_bind, nodes, edges,
    Document.elementsOrNone_list, repeated, names, ids, ends, routes, initial]
  have loose : (f.edges.zipIdx.map fun e =>
      (if e.1.target ∉ f.ids then [Fault.looseTarget e.2 e.1] else []).map Fault.issue).flatten =
      f.looseTargets.map Fault.issue := by
    rw [Flow.looseTargets, ← flatten_ifs (fun e : StoredEdge × Nat => e.1.target ∉ f.ids),
      List.map_flatten, List.map_map]
    rfl
  rw [loose]
  simp [Flow.faults, Flow.repeatedIds, Flow.repeatedNames, Flow.lostRoutes, List.flatMap_def,
    List.map_flatten, Function.comp_def, issue_repeatedId]

end Check
end Dialogue
