import Dialogue.Proofs.Graph.Calm
import Dialogue.Proofs.Graph.EdgeIds
import Dialogue.Proofs.Graph.Gathering

/-!
# From a graph to its flow and back

A graph that reconciling leaves as it is comes back from its flow document. Its regular nodes come
first, each decision with the position of its decision node, and then its decision nodes, where they
were and with what they showed. The edges are those of the graph, unless a decision has a condition
that is no map: such a graph has none.
-/

namespace Dialogue.Graph

variable {settings : Settings} {ns : List Node} {calls : List Owned}

namespace Calm

/-- Every decision of a function with a name has its node. -/
theorem exists_node (calm : Calm calls ns) {o : Owned} (among : o.Among ns) :
    ∃ x ∈ ns, x.isDecision ∧ x.id = o.id :=
  mem_decisionIds.1 ((calm.ids o.id).2 (mem_callIds.2 ⟨o, calm.mem_calls.2 among, rfl⟩))

/-- On a calm canvas a decision node is found by its id. -/
theorem decisionPosition? (calm : Calm calls ns) {x : Node} (member : x ∈ ns)
    (decision : x.isDecision) : decisionPosition? ns x.id = some x.position := by
  have found : ns.reverse.find? (fun n => n.isDecision && n.id = x.id) = some x := by
    refine find?_of_unique (List.mem_reverse.2 member) (by simp [decision]) fun n there same => ?_
    obtain ⟨kind, id⟩ : n.isDecision ∧ n.id = x.id := by simpa using same
    exact List.inj_on_of_nodup_map calm.nodup
      (List.mem_filter.2 ⟨List.mem_reverse.1 there, kind⟩) (List.mem_filter.2 ⟨member, decision⟩) id
  rw [Graph.decisionPosition?, found]
  rfl

end Calm

/-! ## Functions -/

/-- A function that comes back keeps all but the position of its decision, which is that of its
decision node. -/
def Returned (ns : List Node) (owner : String) (f g : Entries) : Prop :=
  match f.get "decision" with
  | .map d => ∃ x ∈ ns, x.isDecision ∧ x.id = decisionIdOf owner (f.get "name") ∧
      g = f.put "decision" (.map (Entries.put d "decision_node_position" x.position.document))
  | _ => g = f

/-- The functions of the regular nodes are maps, each with a name. -/
def Named (ns : List Node) : Prop :=
  ∀ n ∈ ns, n.isDecision = false → ∀ ds, (n.data.get "functions").elementsOrNone = .ok ds →
    ∀ e ∈ ds, ∃ f : Entries, e = .map f ∧ (f.get "name").isTrue

/-- A settled function comes back as it was, with the position of its decision. -/
theorem returned_settle (calm : Calm calls ns) {n : Node} (member : n ∈ ns)
    (notDecision : n.isDecision = false) {fs : List Entries} (functions : n.functions = .ok fs)
    {f : Entries} (called : f ∈ fs) (named : (f.get "name").isTrue) :
    Returned ns n.id f (settle ns n.id f) := by
  unfold Returned
  split
  case h_1 d decided =>
    have among : Owned.Among ⟨n, f, d⟩ ns :=
      ⟨member, notDecision, ⟨fs, functions, called⟩, decided, named⟩
    obtain ⟨x, there, decision, id⟩ := calm.exists_node among
    have position : decisionPosition? ns (decisionIdOf n.id (f.get "name")) = some x.position := by
      rw [← calm.decisionPosition? there decision, id]
      rfl
    exact ⟨x, there, decision, id, by simp only [settle, position, placed, decided]⟩
  case h_2 undecided =>
    unfold settle
    split
    case h_1 p _ =>
      unfold placed
      split
      case h_1 d decided => exact absurd decided (undecided d)
      case h_2 => rfl
    case h_2 => rfl

/-! ## Nodes -/

/-- Data that come back with their functions, if they have any, and as they are otherwise. -/
def DataReturned (ns : List Node) (owner : String) (es fs : Entries) : Prop :=
  (∃ gs hs : List Entries, es.get "functions" = .list (gs.map .map) ∧
      fs = es.put "functions" (.list (hs.map .map)) ∧ List.Forall₂ (Returned ns owner) gs hs) ∨
    (es.get "functions").elementsOrNone = .ok [] ∧ fs = es

/-- A regular node that comes back: with its role derived, no longer selected, and with its
functions returned. Zeros in its position lose their sign. -/
structure Node.Returned (ns : List Node) (n m : Node) : Prop where
  id : m.id = n.id
  position : m.position = n.position.unsigned
  kind : ∃ role, Role.derive (.map m.data) = .ok role ∧ m.kind = role.name
  selected : m.selected = false
  data : DataReturned ns n.id n.data m.data

/-- Items that are all maps are a list of maps. -/
theorem exists_maps {P : Entries → Prop} {ds : List Document}
    (maps : ∀ e ∈ ds, ∃ f, e = .map f ∧ P f) :
    ∃ fs : List Entries, ds = fs.map .map ∧ ∀ f ∈ fs, P f := by
  induction ds with
  | nil => exact ⟨[], rfl, nofun⟩
  | cons d ds ih =>
    obtain ⟨⟨f, rfl, here⟩, rest⟩ := List.forall_mem_cons.1 maps
    obtain ⟨fs, rfl, others⟩ := ih rest
    exact ⟨f :: fs, rfl, List.forall_mem_cons.2 ⟨here, others⟩⟩

@[simp] theorem mapsOf_map (fs : List Entries) : Node.mapsOf (fs.map .map) = fs := by
  simp [Node.mapsOf, List.filterMap_map]

/-- The data of a node come back function by function. -/
theorem data_returned (calm : Calm calls ns) (named : Named ns) {n : Node} (member : n ∈ ns)
    (notDecision : n.isDecision = false) {data : Entries} (h : settledData ns n = .ok data) :
    DataReturned ns n.id n.data data := by
  obtain ⟨ds, elements, h⟩ := bind_eq_ok.1 h
  obtain ⟨fs, rfl, names⟩ := exists_maps (named n member notDecision ds elements)
  split at h
  case h_1 items stands =>
    rw [stands, Document.elementsOrNone_list] at elements
    obtain rfl := Except.ok.inj elements
    have functions : n.functions = .ok fs := by
      simp only [Node.functions, stands, Document.elementsOrNone_list, ok_bind, mapsOf_map,
        pure_eq_ok]
    refine .inl ⟨fs, fs.map (settle ns n.id), stands, ?_, ?_⟩
    · rw [← Except.ok.inj h, List.map_map, List.map_map]
      rfl
    · rw [List.forall₂_map_right_iff, List.forall₂_same]
      exact fun f called =>
        returned_settle calm member notDecision functions called (names f called)
  case h_2 other =>
    refine .inr ⟨?_, (Except.ok.inj h).symm⟩
    cases fs with
    | nil => exact elements
    | cons f fs => exact absurd (eq_list_of_elementsOrNone elements (.head _)) (other _)

/-- A gathered node can be drawn again, and comes back. -/
theorem exists_nodeOfFlow (calm : Calm calls ns) (named : Named ns) {n : Node} (member : n ∈ ns)
    (notDecision : n.isDecision = false) {d : Document} (gathered : flowNode ns n = .ok d) :
    ∃ m, nodeOfFlow d = .ok m ∧ n.Returned ns m := by
  obtain ⟨data, settles, h⟩ := bind_eq_ok.1 gathered
  obtain ⟨role, derived, h⟩ := bind_eq_ok.1 h
  obtain rfl := Except.ok.inj h
  exact ⟨_, nodeOfFlow_object n.id role n.position derived, rfl, rfl, ⟨role, derived, rfl⟩, rfl,
    data_returned calm named member notDecision settles⟩

/-- Only some keys are carried over from the base. -/
theorem get?_carried (base flow : Entries) {key : String} (other : key ∉ carriedKeys) :
    (carried base flow).get? key = flow.get? key := by
  unfold carried
  revert other
  generalize carriedKeys = keys
  induction keys generalizing flow with
  | nil => simp
  | cons k keys ih =>
    intro other
    rw [List.mem_cons, not_or] at other
    rw [List.foldl_cons, ih _ other.2]
    show (if (base.get k).isNull then flow else flow.put k (base.get k)).get? key = _
    split
    · rfl
    · rw [Entries.get?_put, if_neg (Ne.symm other.1)]

/-- A heading has no nodes of its own. -/
theorem get?_heading {base : Option Document} {fields : Entries} (h : heading base = .ok fields) :
    fields.get? "nodes" = none := by
  cases base with
  | none =>
    obtain rfl := Except.ok.inj h
    simp
  | some d =>
    obtain ⟨es, -, h⟩ := bind_eq_ok.1 h
    obtain rfl := Except.ok.inj h
    rw [get?_carried _ _ (by decide)]
    simp

theorem get_nodes_of_heading {base : Option Document} {fields : Entries}
    (head : heading base = .ok fields) (nodes edges : Document) :
    Entries.get (fields ++ [(.text "nodes", nodes), (.text "edges", edges)]) "nodes" = nodes := by
  refine Entries.get_of_get? ?_
  rw [Entries.get?_append _ (get?_heading head)]
  rfl

/-- The nodes of the document that a graph is gathered into are its regular nodes returned. -/
theorem nodesOfFlow_toFlow (calm : Calm calls ns) (named : Named ns) {base : Option Document}
    {d : Document} (gathered : toFlow base ns = .ok d) :
    ∃ ms, nodesOfFlow d = .ok ms ∧ List.Forall₂ (Node.Returned ns) (regular ns) ms := by
  obtain ⟨docs, nodes, h⟩ := bind_eq_ok.1 gathered
  obtain ⟨fields, head, h⟩ := bind_eq_ok.1 h
  obtain ⟨edges, -, h⟩ := bind_eq_ok.1 h
  obtain rfl := Except.ok.inj h
  have own : List.Forall₂ (fun d n => n ∈ regular ns ∧ flowNode ns n = .ok d) docs (regular ns) :=
    forall₂_mem_right (mapM_eq_ok.1 nodes).flip
  obtain ⟨ms, reads, returned⟩ := exists_mapM_of_forall₂ (f := nodeOfFlow)
    (Q := fun m n => n.Returned ns m) own fun d n ⟨member, made⟩ => by
      obtain ⟨member, notDecision⟩ := mem_regular.1 member
      exact exists_nodeOfFlow calm named member notDecision made
  refine ⟨ms, ?_, returned.flip⟩
  simp only [nodesOfFlow, Document.asMap, ok_bind, get_nodes_of_heading head,
    Document.elementsOrNone_list, reads]

/-! ## Decisions -/

/-- What a decision that comes back has in common with the one that was there. -/
structure Owned.Returned (ns : List Node) (o o' : Owned) : Prop where
  id : o'.id = o.id
  summary : o'.summary = o.summary
  position : ∃ x ∈ ns, x.isDecision ∧ x.id = o.id ∧
    ∀ settings, o'.position settings = .ok x.position

/-- A function that comes back owns a decision that comes back. -/
theorem returned_ownedOf? {n m : Node} (id : m.id = n.id) {f g : Entries}
    (back : Returned ns n.id f g) :
    Option.Rel (Owned.Returned ns) (ownedOf? n f) (ownedOf? m g) := by
  unfold Graph.Returned at back
  split at back
  case h_1 d decided =>
    obtain ⟨x, there, decision, id', rfl⟩ := back
    have name : (f.put "decision" (.map (Entries.put d "decision_node_position"
        x.position.document))).get "name" = f.get "name" := by simp [Entries.get_put]
    simp only [ownedOf?, decided, Entries.get_put_self, name]
    split
    case isFalse => exact .none
    case isTrue =>
      have same := Owned.alike_position id x.position f d
      refine .some ⟨same.id, same.summary, x, there, decision, id', fun settings => ?_⟩
      simp [Owned.position, Position.document, Document.object, Document.asFloat]
  case h_2 undecided =>
    obtain rfl := back
    have none (n : Node) : ownedOf? n g = Option.none := by
      unfold ownedOf?
      split
      case h_1 d decided => exact absurd decided (undecided d)
      case h_2 => rfl
    rw [none, none]
    exact .none

theorem isDecision_returned {n m : Node} (back : n.Returned ns m) : m.isDecision = false := by
  obtain ⟨role, -, kind⟩ := back.kind
  exact isDecision_of_role role kind

/-- The functions of a regular node that comes back. -/
theorem functions_returned {n m : Node} (back : n.Returned ns m) :
    ∃ fs gs, n.functions = .ok fs ∧ m.functions = .ok gs ∧
      List.Forall₂ (Graph.Returned ns n.id) fs gs := by
  obtain ⟨fs, gs, stands, data, functions⟩ | ⟨none, data⟩ := back.data
  · refine ⟨fs, gs, ?_, ?_, functions⟩
    · simp [Node.functions, stands]
    · simp [Node.functions, data]
  · exact ⟨[], [], by simp [Node.functions, none, Node.mapsOf],
      by simp [Node.functions, data, none, Node.mapsOf], .nil⟩

/-- So for all functions of a node. -/
theorem callsBy_returned {n m : Node} (notDecision : n.isDecision = false)
    (back : n.Returned ns m) : CallsBy (Owned.Returned ns) n m := by
  obtain ⟨fs, gs, functions, functions', each⟩ := functions_returned back
  refine .of_functions ((isDecision_returned back).trans notDecision.symm) fun _ fs' same => ?_
  obtain rfl := Except.ok.inj (functions.symm.trans same)
  exact ⟨gs, functions', each.imp fun _ _ h => returned_ownedOf? back.id h⟩

/-! ### One decision for each id -/

/-- Decisions that come back take the same places. -/
theorem putOwned_returned {os os' : List Owned} (back : List.Forall₂ (Owned.Returned ns) os os')
    {o o' : Owned} (here : o.Returned ns o') :
    List.Forall₂ (Owned.Returned ns) (putOwned os o) (putOwned os' o') := by
  induction back with
  | nil => exact .cons here .nil
  | cons first rest ih =>
    simp only [putOwned, first.id, here.id]
    split
    · exact .cons here rest
    · exact .cons first ih

theorem foldl_putOwned_returned {xs xs' : List Owned}
    (back : List.Forall₂ (Owned.Returned ns) xs xs') {os os' : List Owned}
    (before : List.Forall₂ (Owned.Returned ns) os os') :
    List.Forall₂ (Owned.Returned ns) (xs.foldl putOwned os) (xs'.foldl putOwned os') := by
  induction back generalizing os os' with
  | nil => exact before
  | cons here _ ih => exact ih (putOwned_returned before here)

/-! ### Decision nodes -/

/-- A decision node that is made anew where one stood, and shows the same. -/
structure Node.Remade (x m : Node) : Prop where
  id : m.id = x.id
  kind : m.kind = Node.decisionKind
  position : m.position = x.position
  selected : m.selected = false
  shows : ∀ key ∈ summaryKeys, (x.data.get key).alike (m.data.get key)

/-- What is built of them are the decision nodes drawn before. -/
theorem exists_remade (calm : Calm calls ns) {o o' : Owned} (member : o ∈ calls.foldl putOwned [])
    (back : o.Returned ns o') (settings : Settings) :
    ∃ m, o'.node settings = .ok m ∧ m.id = o.id ∧ ∃ x ∈ ns, x.isDecision ∧ x.Remade m := by
  obtain ⟨x, there, decision, id, position⟩ := back.position
  obtain ⟨last, s, found, summary, current⟩ := calm.shows x there decision
  have same := lastCall?_of_mem member
  rw [← id, found] at same
  obtain rfl := Option.some.inj same
  have built : o'.node settings = .ok ⟨o'.id, Node.decisionKind, x.position, s, false⟩ := by
    simp only [Owned.node, position settings, back.summary, summary, ok_bind]
  exact ⟨_, built, back.id, x, there, decision, back.id.trans id.symm, rfl, rfl, rfl,
    (isStale_eq_false_iff summary).1 current⟩

/-! ## Edges -/

/-- A function that comes back gives the same edges. -/
theorem functionEdges_returned (owner : Document) {id : String} {f g : Entries}
    (back : Returned ns id f g) : functionEdges owner g = functionEdges owner f := by
  unfold Returned at back
  split at back
  case h_1 d decided =>
    obtain ⟨x, -, -, -, rfl⟩ := back
    simp [functionEdges, decisionEdges, decided, Entries.get_put]
  case h_2 => rw [back]

theorem nodeEdges_returned {n m : Node} (notDecision : n.isDecision = false)
    (back : n.Returned ns m) : nodeEdges m = nodeEdges n := by
  obtain ⟨fs, gs, functions, functions', each⟩ := functions_returned back
  have same : gs.mapM (functionEdges (.text n.id)) = fs.mapM (functionEdges (.text n.id)) := by
    clear functions functions'
    induction each with
    | nil => rfl
    | cons here _ ih => simp only [List.mapM_cons, functionEdges_returned _ here, ih]
  simp [nodeEdges, notDecision, isDecision_returned back, functions, functions', back.id, same]

/-- So all edges are derived again. -/
theorem deriveEdges_returned {rs ms : List Node} (regular : ∀ n ∈ rs, n.isDecision = false)
    (back : List.Forall₂ (Node.Returned ns) rs ms) : deriveEdges ms = deriveEdges rs := by
  induction back with
  | nil => rfl
  | cons here _ ih =>
    obtain ⟨first, others⟩ := List.forall_mem_cons.1 regular
    rw [deriveEdges_cons, deriveEdges_cons, nodeEdges_returned first here, ih others]

/-- Every condition of a decision is a map. -/
def ConditionsRead (ns : List Node) : Prop :=
  ∀ o : Owned, o.Among ns →
    ∃ cs, (o.decision.get "conditions").elementsOrNone = .ok cs ∧ ∀ c ∈ cs, c.isMap

/-- The conditions of a decision have edges if all of them are maps. -/
theorem exists_conditionEdges_iff (id : String) {cs : List Document} :
    (∃ es, conditionEdges id cs = .ok es) ↔ ∀ c ∈ cs, c.isMap := by
  have each (c : Document × Nat) : (∃ e, conditionEdge id c.2 c.1 = .ok e) ↔ c.1.isMap := by
    obtain ⟨c, i⟩ := c
    cases c <;> simp [conditionEdge, Document.entries, Document.isMap]
  rw [conditionEdges, exists_mapM_iff]
  simp only [each]
  rw [← List.forall_mem_map (f := Prod.fst) (P := fun c : Document => c.isMap = true),
    List.zipIdx_map_fst]

/-- So edges can be derived of a function just when its conditions can be read. -/
theorem exists_functionEdges_iff (owner : Document) {f : Entries} :
    (∃ es, functionEdges owner f = .ok es) ↔
      ∀ d : Entries, f.get "decision" = .map d → (f.get "name").isTrue →
        ∃ cs, (d.get "conditions").elementsOrNone = .ok cs ∧ ∀ c ∈ cs, c.isMap := by
  have decided (name : Document) (d : Entries) : (∃ es, decisionEdges owner name d = .ok es) ↔
      ∃ cs, (d.get "conditions").elementsOrNone = .ok cs ∧ ∀ c ∈ cs, c.isMap := by
    simp only [decisionEdges, exists_bind_eq_ok]
    refine exists_congr fun cs => and_congr_right fun _ => ?_
    rw [← exists_conditionEdges_iff (decisionIdOf owner.display name)]
    simp
  cases named : (f.get "name").isTrue with
  | false => simp [functionEdges, named]
  | true =>
    cases h : f.get "decision" with
    | map d => simp [functionEdges, named, h, decided]
    | _ => simp [functionEdges, named, h]

theorem exists_nodeEdges_iff {n : Node} (notDecision : n.isDecision = false) {fs : List Entries}
    (functions : n.functions = .ok fs) :
    (∃ es, nodeEdges n = .ok es) ↔ ∀ f ∈ fs, ∃ es, functionEdges (.text n.id) f = .ok es := by
  rw [← exists_mapM_iff]
  simp only [nodeEdges, notDecision, functions, ok_bind]
  cases fs.mapM (functionEdges (.text n.id)) <;> simp

/-- And of a canvas just when all conditions can be. -/
theorem exists_deriveEdges_iff (calling : callsOf ns = .ok calls) :
    (∃ es, deriveEdges ns = .ok es) ↔ ConditionsRead ns := by
  have each : (∃ es, deriveEdges ns = .ok es) ↔ ∀ n ∈ ns, ∃ es, nodeEdges n = .ok es := by
    rw [← exists_mapM_iff, deriveEdges]
    cases ns.mapM nodeEdges <;> simp
  rw [each]
  constructor
  · intro derives o among
    obtain ⟨fs, functions, called⟩ := among.function
    exact (exists_functionEdges_iff _).1 ((exists_nodeEdges_iff among.regular functions).1
      (derives o.owner among.owner) o.function called) o.decision among.decision among.named
  · intro read n member
    cases decision : n.isDecision with
    | true => exact ⟨[], by simp [nodeEdges, decision]⟩
    | false =>
      obtain ⟨fs, functions⟩ := exists_functions calling member decision
      refine (exists_nodeEdges_iff decision functions).2 fun f called =>
        (exists_functionEdges_iff _).2 fun d decided named => ?_
      exact read ⟨n, f, d⟩ ⟨member, decision, ⟨fs, functions, called⟩, decided, named⟩

/-! ## The graph again -/

/-- The graph of the document that a graph is gathered into. -/
structure Regathered (settings : Settings) (ns : List Node) (d : Document) : Prop where
  /-- No two decision nodes have one id, so that a decision has just one. -/
  distinct : (decisionIds ns).Nodup
  /-- Regular nodes come first, in their order, and then a decision node for each there was. -/
  graph : ∃ kept made, List.Forall₂ (Node.Returned ns) (regular ns) kept ∧
    (made.map (·.id)).Perm (decisionIds ns) ∧
    (∀ m ∈ made, ∃ x ∈ ns, x.isDecision ∧ x.Remade m) ∧
    ofFlow settings d = Prod.mk (kept ++ made) <$> deriveEdges ns
  /-- There are edges, and with them a graph, if all conditions of decisions are maps. -/
  edges : (∃ es, deriveEdges ns = .ok es) ↔ ConditionsRead ns

/-- A graph that reconciling leaves as it is comes back from the document that it is gathered into,
unless a condition is no map. -/
theorem ofFlow_toFlow {r : Reconciled} (reconciled : reconcile settings ns = .ok r)
    (unchanged : r.changed = false) (named : Named ns) {base : Option Document} {d : Document}
    (gathered : toFlow base ns = .ok d) (settings' : Settings) : Regathered settings' ns d := by
  obtain ⟨calls, calm⟩ := calm_of_reconcile reconciled unchanged
  obtain ⟨ms, reads, back⟩ := nodesOfFlow_toFlow calm named gathered
  have notDecision : ∀ n ∈ regular ns, n.isDecision = false := fun n member =>
    (mem_regular.1 member).2
  have calling : callsOf (regular ns) = .ok calls := by rw [callsOf_regular, calm.calling]
  have each : List.Forall₂ (CallsBy (Owned.Returned ns)) (regular ns) ms :=
    ((List.forall₂_and_left _ _).2 ⟨notDecision, back⟩).imp fun _ _ h => callsBy_returned h.1 h.2
  obtain ⟨calls', calling', called⟩ := callsOf_of_forall₂ each calling
  have owned := foldl_putOwned_returned called .nil
  obtain ⟨made, builds, remade⟩ := exists_mapM_of_forall₂
    (f := fun o' : Owned => o'.node settings')
    (Q := fun m o => m.id = o.id ∧ ∃ x ∈ ns, x.isDecision ∧ x.Remade m)
    (forall₂_mem_right owned.flip) fun o' o ⟨member, here⟩ =>
      exists_remade calm member here settings'
  have plain : ∀ m ∈ ms, m.isDecision = false := by
    intro m member
    obtain ⟨n, -, here⟩ := exists_of_mem_right back member
    exact isDecision_returned here
  obtain ⟨r', reconciled', nodes⟩ :=
    reconcile_of_regular plain (expected_eq_ok.2 ⟨calls', calling', rfl⟩) builds
  have edges : deriveEdges (ms ++ made) = deriveEdges ns := by
    have own : regular ms = ms := List.filter_eq_self.2 (by simpa using plain)
    rw [← deriveEdges_regular, regular_append, own, (built_spec (mapM_eq_ok.1 builds)).1,
      List.append_nil, deriveEdges_returned notDecision back, deriveEdges_regular]
  refine ⟨calm.nodup, ⟨ms, made, back, ?_, fun m member => ?_, ?_⟩,
    exists_deriveEdges_iff calm.calling⟩
  · have ids : made.map (·.id) = (calls.foldl putOwned []).map (·.id) :=
      map_of_forall₂ remade fun m o here => here.1
    rw [ids, List.perm_ext_iff_of_nodup (foldl_putOwned [] calls .nil).1 calm.nodup]
    intro id
    rw [calm.ids, ids_foldl_putOwned]
  · obtain ⟨o, -, -, x, there, here⟩ := exists_of_mem_left remade member
    exact ⟨x, there, here⟩
  · simp only [ofFlow, reads, reconciled', ok_bind, nodes, edges]
    cases deriveEdges ns <;> rfl

/-- A graph of one function with a decision on these conditions, whose decision node comes first. -/
def asking (conditions : List Document) : List Node := [
  { id := "decision-ask-choose"
    kind := Node.decisionKind
    position := ⟨1.0, 2.0⟩
    data := [
      (.text "label", .text "choose"),
      (.text "action", .text "pass"),
      (.text "condition_count", .int conditions.length),
      (.text "source_node_id", .text "ask"),
      (.text "function_name", .text "choose")]
    selected := true },
  { id := "ask"
    kind := "node"
    position := ⟨0.0, 5.0⟩
    data := [(.text "functions", .list [.object [
      ("name", .text "choose"),
      ("decision", .object [
        ("action", .text "pass"),
        ("conditions", .list conditions),
        ("default_next_node_id", .text "ask")])]])]
    selected := true }]

theorem named_asking (conditions : List Document) : Named (asking conditions) := by
  intro n member notDecision ds elements e there
  simp only [asking, List.mem_cons, List.not_mem_nil, or_false] at member
  rcases member with rfl | rfl
  · cases notDecision
  · obtain rfl := Except.ok.inj elements
    obtain rfl := List.mem_singleton.1 there
    exact ⟨_, rfl, rfl⟩

/-- The only condition leads back to the node. -/
def askingAgain : List Node := asking [.object [("next_node_id", .text "ask")]]

theorem ofFlow_toFlow_asking : ∃ r d, reconcile {} askingAgain = .ok r ∧
    r.changed = false ∧ Named askingAgain ∧ toFlow none askingAgain = .ok d ∧
    Regathered {} askingAgain d := by
  obtain ⟨r, reconciled, unchanged⟩ : ∃ r, reconcile {} askingAgain = .ok r ∧
      r.changed = false := ⟨_, rfl, rfl⟩
  obtain ⟨d, gathered⟩ : ∃ d, toFlow none askingAgain = .ok d := ⟨_, rfl⟩
  exact ⟨r, d, reconciled, unchanged, named_asking _, gathered,
    ofFlow_toFlow reconciled unchanged (named_asking _) gathered {}⟩

/-- A condition that is no map is carried to the document, but stands in the way of the graph. -/
theorem asking_lost : ∃ r d, reconcile {} (asking [.int 1]) = .ok r ∧ r.changed = false ∧
    Named (asking [.int 1]) ∧ toFlow none (asking [.int 1]) = .ok d ∧
    ofFlow {} d = .error .noFields :=
  ⟨_, _, rfl, rfl, named_asking _, rfl, rfl⟩

end Dialogue.Graph
