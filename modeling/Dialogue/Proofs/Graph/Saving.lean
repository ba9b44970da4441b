import Dialogue.Proofs.Graph.Refresh
import Dialogue.Proofs.Graph.Regathering

/-!
# What a saved graph holds

A graph is saved in three steps: the nodes are written, the fields of the base document go over, and
the edges are read off the written functions. The nodes are written whatever their functions are; an
entry that is no function goes over untouched. Only then the edges ask every entry for its fields,
so a graph with such an entry can be shown and refreshed, but not saved.
-/

namespace Dialogue.Graph

variable {nodes : List Node} {n : Node}

/-! ## Written nodes -/

/-- The role of a node whose functions can be gone through. -/
def roleOf (n : Node) : Loose Role := do
  let _ ← (n.data.get "functions").elementsOrNone
  Role.derive (.map n.data)

/-- The data of a node as they are written: decisions keep the positions of their nodes. -/
def savedData (nodes : List Node) (n : Node) : Entries :=
  match n.data.get "functions" with
  | .list ds => n.data.put "functions" (.list (ds.map (settled nodes n.id)))
  | _ => n.data

def savedNode (nodes : List Node) (n : Node) (role : Role) : Document :=
  .object [("id", .text n.id), ("type", .text role.name), ("position", n.position.document),
    ("data", .map (savedData nodes n))]

/-- Settled data have the role of the data. -/
theorem derive_savedData (nodes : List Node) (n : Node) :
    Role.derive (.map (savedData nodes n)) = Role.derive (.map n.data) := by
  unfold savedData
  split
  · simp [Role.derive, Entries.get_put]
  · rfl

/-- Whether a node can be written does not depend on the decision nodes there are. -/
theorem flowNode_eq (nodes : List Node) (n : Node) :
    flowNode nodes n = savedNode nodes n <$> roleOf n := by
  have data : settledData nodes n =
      (fun _ => savedData nodes n) <$> (n.data.get "functions").elementsOrNone := by
    unfold settledData savedData
    cases n.data.get "functions" with
    | list ds => simp
    | _ => cases Document.elementsOrNone _ <;> rfl
  rw [flowNode, roleOf, data]
  cases (n.data.get "functions").elementsOrNone with
  | error e => rfl
  | ok ds =>
    simp only [map_ok, ok_bind, derive_savedData]
    cases Role.derive (.map n.data) <;> rfl

/-! ## Edges of written nodes -/

/-- A node as far as its edges show it. -/
def bareNode (n : Node) : Document := .object [("id", .text n.id), ("data", .map n.data)]

/-- Settling changes nothing but the decision. -/
theorem get_settle (owner : String) (f : Entries) {key : String} (other : key ≠ "decision") :
    (settle nodes owner f).get key = f.get key := by
  unfold settle placed
  split
  · split <;> simp [Entries.get_put, Ne.symm other]
  · rfl

theorem isNull_settle (owner : String) (f : Entries) :
    ((settle nodes owner f).get "decision").isNull = (f.get "decision").isNull := by
  unfold settle placed
  split
  · split
    · simp [*, Document.isNull]
    · rfl
  · rfl

/-- The position in its decision says nothing of where a function leads. -/
theorem storedEdge?_settled (node : Document) (owner : String) (d : Document) :
    storedEdge? node (settled nodes owner d) = storedEdge? node d := by
  cases d with
  | map f =>
    have target : (settle nodes owner f).get "next_node_id" = Entries.get f "next_node_id" :=
      get_settle owner f (by decide)
    have name : (settle nodes owner f).get "name" = Entries.get f "name" :=
      get_settle owner f (by decide)
    simp only [settled, storedEdge?, Document.entries, ok_bind, isNull_settle, target, name]
  | _ => rfl

/-- So it changes no stored edge. -/
theorem storedEdge?_savedNode (role : Role) (d : Document) :
    storedEdge? (savedNode nodes n role) d = storedEdge? (bareNode n) d := by
  cases d <;> simp [storedEdge?, savedNode, bareNode, Document.object, Document.entries]

theorem functionItems_bareNode (n : Node) :
    functionItems (bareNode n) = (n.data.get "functions").elementsOrNone := by
  simp [functionItems, bareNode, Document.field, Document.object, Document.entries, Entries.get,
    Document.Maps.entriesOrNone (.inr rfl)]

/-- The functions saved are the settled ones, in order. -/
theorem functionItems_savedNode (role : Role) : functionItems (savedNode nodes n role) =
    List.map (settled nodes n.id) <$> functionItems (bareNode n) := by
  have data : functionItems (savedNode nodes n role) =
      ((savedData nodes n).get "functions").elementsOrNone := by
    simp [functionItems, savedNode, Document.field, Document.object, Document.entries, Entries.get,
      Document.Maps.entriesOrNone (.inr rfl)]
  rw [data, functionItems_bareNode, savedData]
  split
  case h_1 ds stands => simp [stands]
  case h_2 other =>
    cases elements : (n.data.get "functions").elementsOrNone with
    | error e => rfl
    | ok ds =>
      -- Only lists have maps to settle.
      have same : ds.map (settled nodes n.id) = ds := by
        refine (List.map_congr_left fun d member => ?_).trans (List.map_id' ds)
        cases d with
        | map es => exact absurd (eq_list_of_elementsOrNone elements member) (other ds)
        | _ => rfl
      rw [map_ok, same]

/-- The direct routes of a node are those that it had. -/
theorem storedNodeEdges_savedNode (role : Role) :
    storedNodeEdges (savedNode nodes n role) = storedNodeEdges (bareNode n) := by
  rw [storedNodeEdges, storedNodeEdges, functionItems_savedNode]
  cases functionItems (bareNode n) with
  | error e => rfl
  | ok ds =>
    have each : (ds.map (settled nodes n.id)).mapM (storedEdge? (savedNode nodes n role)) =
        List.map id <$> ds.mapM (storedEdge? (bareNode n)) :=
      mapM_map_functor (fun d => by
        rw [storedEdge?_settled, storedEdge?_savedNode]
        cases storedEdge? (bareNode n) d <;> rfl) ds
    rw [map_ok, ok_bind, ok_bind, each]
    cases ds.mapM (storedEdge? (bareNode n)) <;> simp

/-! ## The whole document -/

/-- The document of written nodes. -/
def savedFlow (fields : Entries) (docs edges : List Document) : Document :=
  .map (fields ++ [(.text "nodes", .list docs), (.text "edges", .list edges)])

/-- Nodes are gathered one by one, as soon as their roles can be read. -/
theorem mapM_flowNode (nodes ns : List Node) : ns.mapM (flowNode nodes) =
    List.zipWith (savedNode nodes) ns <$> ns.mapM roleOf := by
  induction ns with
  | nil => rfl
  | cons n ns ih =>
    rw [List.mapM_cons, List.mapM_cons, ih, flowNode_eq]
    cases roleOf n with
    | error e => rfl
    | ok role => cases ns.mapM roleOf <;> rfl

theorem storedEdges_savedNodes {ns : List Node} {roles : List Role}
    (length : roles.length = ns.length) :
    storedEdges (List.zipWith (savedNode nodes) ns roles) = storedEdges (ns.map bareNode) := by
  have each : (List.zipWith (savedNode nodes) ns roles).mapM storedNodeEdges =
      (ns.map bareNode).mapM storedNodeEdges := by
    induction ns generalizing roles with
    | nil => rfl
    | cons n ns ih =>
      cases roles with
      | nil => cases length
      | cons role roles =>
        rw [List.zipWith_cons_cons, List.map_cons, List.mapM_cons, List.mapM_cons,
          storedNodeEdges_savedNode, ih (by simpa using length)]
  rw [storedEdges, storedEdges, each]

/-- Only the positions in decisions depend on the decision nodes there are. All else of the
document, and whether there is one, depends on the regular nodes. -/
theorem toFlow_eq (base : Option Document) (nodes : List Node) : toFlow base nodes = (do
    let roles ← (regular nodes).mapM roleOf
    let fields ← heading base
    let edges ← storedEdges ((regular nodes).map bareNode)
    .ok (savedFlow fields (List.zipWith (savedNode nodes) (regular nodes) roles) edges)) := by
  rw [toFlow, ← regular, mapM_flowNode]
  cases run : (regular nodes).mapM roleOf with
  | error e => rfl
  | ok roles =>
    have length := (mapM_eq_ok.1 run).length_eq
    rw [map_ok, ok_bind, storedEdges_savedNodes length.symm]
    rfl

/-! ## Functions that are no maps -/

/-- The functions and the actions of a node are lists, if they are there at all. -/
structure Node.Listed (n : Node) : Prop where
  functions : ∀ d, n.data.get? "functions" = some d → ∃ ds, d = .list ds
  actions : ∀ d, n.data.get? "post_actions" = some d → ∃ ds, d = .list ds

/-- The entries of a node's functions. -/
def Node.items (n : Node) : List Document :=
  match n.data.get "functions" with
  | .list ds => ds
  | _ => []

/-- An entry of a node's functions as it is saved: a function is settled, all else is untouched. -/
structure KeepsEntry (nodes : List Node) (owner : String) (e e' : Document) : Prop where
  function : ∀ f, e = .map f → e' = .map (settle nodes owner f)
  other : e.isMap = false → e' = e

/-- The data of a node in a saved document: all but the functions as they were, and these entry by
entry. -/
structure Node.Keeps (nodes : List Node) (n : Node) (data : Entries) : Prop where
  others : ∀ key, key ≠ "functions" → data.get? key = n.data.get? key
  absent : n.data.get? "functions" = none → data.get? "functions" = none
  entries : ∀ d, n.data.get? "functions" = some d → ∃ ds, data.get? "functions" = some (.list ds) ∧
    List.Forall₂ (KeepsEntry nodes n.id) n.items ds

/-- A node of a saved document. -/
structure Node.SavedAs (nodes : List Node) (n : Node) (d : Document) : Prop where
  id : d.field "id" = .ok (.text n.id)
  role : ∃ role, Role.derive (.map n.data) = .ok role ∧ d.field "type" = .ok (.text role.name)
  position : d.field "position" = .ok n.position.document
  data : ∃ data, d.field "data" = .ok (.map data) ∧ n.Keeps nodes data

/-- The functions are a list, or there are none. -/
theorem Node.Listed.get_functions (listed : n.Listed) :
    n.data.get "functions" = .list n.items ∨ n.data.get? "functions" = none ∧ n.items = [] := by
  cases h : n.data.get? "functions" with
  | none => exact .inr ⟨rfl, by simp [Node.items, Entries.get, h]⟩
  | some d =>
    obtain ⟨ds, rfl⟩ := listed.functions d h
    exact .inl (by simp [Node.items, Entries.get, h])

theorem Node.Listed.functionItems (listed : n.Listed) :
    functionItems (bareNode n) = .ok n.items := by
  rw [functionItems_bareNode]
  rcases listed.get_functions with stands | ⟨absent, none⟩
  · rw [stands, Document.elementsOrNone_list]
  · rw [none, Entries.get, absent]
    rfl

/-- A settled function keeps all but the position of its decision. -/
theorem keepsEntry_settled (nodes : List Node) (owner : String) (e : Document) :
    KeepsEntry nodes owner e (settled nodes owner e) where
  function := by
    rintro f rfl
    rfl
  other isMap := by
    cases e with
    | map f => cases isMap
    | _ => rfl

/-- Saved data keep all but those positions. -/
theorem keeps_savedData (listed : n.Listed) (nodes : List Node) :
    n.Keeps nodes (savedData nodes n) := by
  rcases listed.get_functions with stands | ⟨absent, none⟩
  · have data : savedData nodes n =
        n.data.put "functions" (.list (n.items.map (settled nodes n.id))) := by
      simp [savedData, stands]
    have there : n.data.get? "functions" = some (.list n.items) :=
      Entries.get?_of_get stands (by simp)
    rw [data]
    refine ⟨fun key other => ?_, fun absent => ?_, fun d _ =>
      ⟨n.items.map (settled nodes n.id), ?_, ?_⟩⟩
    · rw [Entries.get?_put, if_neg (Ne.symm other)]
    · cases absent.symm.trans there
    · rw [Entries.get?_put, if_pos rfl]
    · rw [List.forall₂_map_right_iff, List.forall₂_same]
      exact fun e _ => keepsEntry_settled nodes n.id e
  · have data : savedData nodes n = n.data := by simp [savedData, Entries.get, absent]
    rw [data]
    exact ⟨fun _ _ => rfl, fun _ => absent, fun d there => by simp [absent] at there⟩

/-- A listed node is saved as it should be. -/
theorem savedAs_savedNode (listed : n.Listed) (nodes : List Node) {role : Role}
    (derived : Role.derive (.map n.data) = .ok role) :
    n.SavedAs nodes (savedNode nodes n role) where
  id := rfl
  role := ⟨role, derived, rfl⟩
  position := rfl
  data := ⟨_, rfl, keeps_savedData listed nodes⟩

theorem exists_roleOf (listed : n.Listed) :
    ∃ role, roleOf n = .ok role ∧ Role.derive (.map n.data) = .ok role := by
  have items : (n.data.get "functions").elementsOrNone = .ok n.items := by
    rw [← functionItems_bareNode, listed.functionItems]
  have actions : ∃ ds, (n.data.get "post_actions").elementsOrNone = .ok ds := by
    cases h : n.data.get? "post_actions" with
    | none => exact ⟨[], by simp [Entries.get, h]; rfl⟩
    | some d =>
      obtain ⟨ds, rfl⟩ := listed.actions d h
      exact ⟨ds, by simp [Entries.get, h]⟩
  obtain ⟨ds, actions⟩ := actions
  have derives : ∃ role, Role.derive (.map n.data) = .ok role := by
    simp [Role.derive, actions]
  obtain ⟨role, derived⟩ := derives
  exact ⟨role, by simp [roleOf, items, derived], derived⟩

/-- What is no map fails as a function. -/
theorem storedEdge?_of_not_map (node : Document) {e : Document} (other : e.isMap = false) :
    storedEdge? node e = .error .noFields := by
  cases e with
  | map f => cases other
  | _ => rfl

theorem exists_storedEdge? (n : Node) {e : Document} (isMap : e.isMap) :
    ∃ o, storedEdge? (bareNode n) e = .ok o := by
  obtain ⟨f, rfl⟩ := Document.exists_of_isMap isMap
  simp only [storedEdge?, Document.entries, ok_bind]
  split
  · exact ⟨_, rfl⟩
  · exact ⟨none, rfl⟩

/-- It is the one thing that fails. -/
theorem storedEdge?_error {e : Document} {m : Malformed}
    (fails : storedEdge? (bareNode n) e = .error m) : m = .noFields := by
  cases isMap : e.isMap with
  | true =>
    obtain ⟨o, made⟩ := exists_storedEdge? n isMap
    cases fails.symm.trans made
  | false =>
    rw [storedEdge?_of_not_map _ isMap] at fails
    exact (Except.error.inj fails).symm

theorem storedNodeEdges_of_listed (listed : n.Listed) : storedNodeEdges (bareNode n) =
    List.filterMap id <$> n.items.mapM (storedEdge? (bareNode n)) := by
  rw [storedNodeEdges, listed.functionItems, ok_bind]
  cases n.items.mapM (storedEdge? (bareNode n)) <;> rfl

/-- Where all functions are maps the direct routes are stored. -/
theorem exists_storedEdges (listed : ∀ n ∈ nodes, n.Listed)
    (maps : ∀ n ∈ nodes, ∀ e ∈ n.items, e.isMap) :
    ∃ edges, storedEdges (nodes.map bareNode) = .ok edges := by
  have each : ∃ ess, (nodes.map bareNode).mapM storedNodeEdges = .ok ess := by
    refine exists_mapM (List.forall_mem_map.2 fun n member => ?_)
    obtain ⟨es, made⟩ := exists_mapM fun e there => exists_storedEdge? n (maps n member e there)
    exact ⟨es.filterMap id, by rw [storedNodeEdges_of_listed (listed n member), made, map_ok]⟩
  obtain ⟨ess, made⟩ := each
  exact ⟨ess.flatten, by simp [storedEdges, made]⟩

/-- Where one is not, nothing is. -/
theorem storedEdges_of_not_map (listed : ∀ n ∈ nodes, n.Listed) {n : Node} (member : n ∈ nodes)
    {e : Document} (there : e ∈ n.items) (other : e.isMap = false) :
    storedEdges (nodes.map bareNode) = .error .noFields := by
  have only (m : Node) (found : m ∈ nodes) (x : Malformed)
      (fails : storedNodeEdges (bareNode m) = .error x) : x = .noFields := by
    rw [storedNodeEdges_of_listed (listed m found)] at fails
    cases run : m.items.mapM (storedEdge? (bareNode m)) with
    | ok es => simp [run] at fails
    | error y =>
      obtain ⟨d, -, here⟩ := exists_of_mapM_error run
      obtain rfl : y = x := by simpa [run] using fails
      exact storedEdge?_error here
  have fails : storedNodeEdges (bareNode n) = .error .noFields := by
    rw [storedNodeEdges_of_listed (listed n member),
      mapM_eq_error there (storedEdge?_of_not_map _ other) fun _ _ _ => storedEdge?_error]
    rfl
  have run : (nodes.map bareNode).mapM storedNodeEdges = .error .noFields :=
    mapM_eq_error (List.mem_map_of_mem member) fails (List.forall_mem_map.2 only)
  rw [storedEdges, run]
  rfl

theorem savedAs_zipWith {ns : List Node} (listed : ∀ n ∈ ns, n.Listed) {roles : List Role}
    (read : List.Forall₂ (fun n role => roleOf n = .ok role) ns roles) :
    List.Forall₂ (Node.SavedAs nodes) ns (List.zipWith (savedNode nodes) ns roles) := by
  induction read with
  | nil => exact .nil
  | @cons n role ns roles here _ ih =>
    obtain ⟨first, rest⟩ := List.forall_mem_cons.1 listed
    obtain ⟨role', read, derived⟩ := exists_roleOf first
    obtain rfl := Except.ok.inj (here.symm.trans read)
    exact .cons (savedAs_savedNode first nodes derived) (ih rest)

theorem field_savedFlow {base : Option Document} {fields : Entries}
    (head : heading base = .ok fields) (docs edges : List Document) :
    (savedFlow fields docs edges).field "nodes" = .ok (.list docs) := by
  simp [savedFlow, Document.field, Document.entries, get_nodes_of_heading head]

/-- Nodes whose functions are lists can all be written. They are saved if all their functions are
maps, and not saved otherwise. -/
theorem toFlow_of_listed (listed : ∀ n ∈ regular nodes, n.Listed) (base : Option Entries) :
    ∃ docs, List.Forall₂ (Node.SavedAs nodes) (regular nodes) docs ∧
      ((∀ n ∈ regular nodes, ∀ e ∈ n.items, e.isMap) →
        ∃ d, toFlow (base.map .map) nodes = .ok d ∧ d.field "nodes" = .ok (.list docs)) ∧
      ∀ n ∈ regular nodes, ∀ e ∈ n.items, e.isMap = false →
        toFlow (base.map .map) nodes = .error .noFields := by
  obtain ⟨roles, read⟩ := exists_mapM fun n member =>
    (exists_roleOf (listed n member)).imp fun _ h => h.1
  obtain ⟨fields, head⟩ : ∃ fields, heading (base.map .map) = .ok fields := by
    cases base <;> exact ⟨_, rfl⟩
  refine ⟨_, savedAs_zipWith listed (mapM_eq_ok.1 read), fun maps => ?_, fun n member e there other =>
    ?_⟩
  · obtain ⟨edges, made⟩ := exists_storedEdges listed maps
    exact ⟨_, by simp only [toFlow_eq, read, head, made, ok_bind], field_savedFlow head _ edges⟩
  · simp only [toFlow_eq, read, head, storedEdges_of_not_map listed member there other, ok_bind,
      error_bind]

/-- A graph that can be refreshed is written node by node, before and after, with all entries of
functions in their places and untouched if they are no functions. But it is saved only if there are
no such entries; if there are, reading off the edges fails. -/
theorem saves_iff_of_refresh {settings : Settings} {edges : List Edge}
    {out : List Node × List Edge × Bool} (refreshed : refresh settings nodes edges = .ok out)
    (listed : ∀ n ∈ regular nodes, n.Listed) (base : Option Entries) :
    ∀ ns ∈ [nodes, out.1], ∃ docs, List.Forall₂ (Node.SavedAs ns) (regular nodes) docs ∧
      ((∀ n ∈ regular nodes, ∀ e ∈ n.items, e.isMap) →
        ∃ d, toFlow (base.map .map) ns = .ok d ∧ d.field "nodes" = .ok (.list docs)) ∧
      ∀ n ∈ regular nodes, ∀ e ∈ n.items, e.isMap = false →
        toFlow (base.map .map) ns = .error .noFields := by
  obtain ⟨r, derived, reconciled, -, rfl⟩ := refresh_eq_ok.1 refreshed
  have same : regular r.nodes = regular nodes := (reconciles_of_reconcile reconciled).regular
  intro ns member
  have own : regular ns = regular nodes := by
    simp only [List.mem_cons, List.not_mem_nil, or_false] at member
    rcases member with rfl | rfl
    · rfl
    · exact same
  rw [← own] at listed ⊢
  exact toFlow_of_listed listed base

/-- What a canvas sends for a node with one entry that is no function. -/
def oddPayload : Document :=
  .object [("id", .text "ask"), ("data", .object [("functions", .list [.int 1])])]

def odd : Node where
  id := "ask"
  kind := "node"
  position := ⟨0.0, 0.0⟩
  data := [(.text "functions", .list [.int 1])]

theorem listed_odd : ∀ n ∈ regular [odd], n.Listed := by
  refine List.forall_mem_singleton.2 ⟨fun d there => ?_, fun d there => ?_⟩
  · exact ⟨_, (Option.some.inj there).symm⟩
  · cases there

theorem saves_iff_of_refresh_odd : ∃ out, refresh {} [odd] [] = .ok out ∧
    (∀ n ∈ regular [odd], n.Listed) ∧
    ∀ ns ∈ [[odd], out.1], ∃ docs, List.Forall₂ (Node.SavedAs ns) (regular [odd]) docs ∧
      ((∀ n ∈ regular [odd], ∀ e ∈ n.items, e.isMap) →
        ∃ d, toFlow none ns = .ok d ∧ d.field "nodes" = .ok (.list docs)) ∧
      ∀ n ∈ regular [odd], ∀ e ∈ n.items, e.isMap = false →
        toFlow none ns = .error .noFields := by
  obtain ⟨out, refreshed⟩ : ∃ out, refresh {} [odd] [] = .ok out := ⟨_, rfl⟩
  exact ⟨out, refreshed, listed_odd, saves_iff_of_refresh refreshed listed_odd none⟩

/-- The entry goes into the graph and through a refresh, which changes nothing, but the graph cannot
be saved. -/
theorem odd_unsaved : Node.ofDocument oddPayload = .ok odd ∧ (∀ n ∈ regular [odd], n.Listed) ∧
    refresh {} [odd] [] = .ok ([odd], [], false) ∧ toFlow none [odd] = .error .noFields :=
  ⟨rfl, listed_odd, rfl, rfl⟩

end Dialogue.Graph
