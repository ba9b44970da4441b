import Dialogue.Proofs.Edit.Canvas
import Dialogue.Proofs.Edit.Written
import Dialogue.Proofs.Graph.Reconcile

/-!
# Edits of graphs and of documents agree

Renaming or deleting a node of a graph and then gathering the document does what the same edit does
to the gathered document, and fails just when that fails, for the same reason.
-/

namespace Dialogue

open Document (ofOption listOf onMap onItems)

/-! ## Places of decisions -/

theorem node_of_mem_decidings {n : FlowNode} {x : Deciding} (member : x ∈ n.decidings) :
    x.node = n := by
  obtain ⟨f, -, some⟩ := List.mem_filterMap.1 member
  obtain ⟨d, -, rfl⟩ := Option.map_eq_some_iff.1 some
  rfl

section

variable {place place' : String → Option Position} {r : Renaming}

/-- A renamed function is settled like the function itself if its decision has the same place. -/
theorem NodeFunction.settledBy_renamed {owner owner' : String} {f : NodeFunction}
    (same : f.decision.isSome →
      place' (Identifier.decisionId owner' f.name) = place (Identifier.decisionId owner f.name)) :
    (f.renamed r).settledBy place' owner' = (f.settledBy place owner).renamed r := by
  have name : (f.renamed r).name = f.name := rfl
  unfold NodeFunction.settledBy
  rw [name]
  cases h : f.decision with
  | none =>
    have renamed : (f.renamed r).decision = none := by simp [NodeFunction.renamed, h]
    have unplaced : ({ f with decision := none } : NodeFunction) = f := by rw [← h]
    have still : ({ f.renamed r with decision := none } : NodeFunction) = f.renamed r := by
      rw [← renamed]
    cases place' (Identifier.decisionId owner' f.name) <;>
      cases place (Identifier.decisionId owner f.name) <;> simp [renamed, unplaced, still]
  | some d =>
    rw [same (by simp [h])]
    cases place (Identifier.decisionId owner f.name) <;>
      simp [NodeFunction.renamed, h, Decision.renamed]

/-- A rename may come before or after the decisions are given places, if these go along with the
ids. -/
theorem FlowNode.settledBy_renamedAs {n : FlowNode}
    (same : ∀ x ∈ n.decidings,
      place' (Identifier.decisionId (r.id n.id) x.function.name) = place x.id) :
    (n.renamedAs r).settledBy place' = (n.settledBy place).renamedAs r := by
  have functions :
      (n.data.functions.map (·.map (·.renamed r))).map (·.map (·.settledBy place' (r.id n.id))) =
        (n.data.functions.map (·.map (·.settledBy place n.id))).map (·.map (·.renamed r)) := by
    cases h : n.data.functions with
    | none => rfl
    | some fs =>
      have each : ∀ f ∈ fs, (f.renamed r).settledBy place' (r.id n.id) =
          (f.settledBy place n.id).renamed r := by
        intro f member
        refine NodeFunction.settledBy_renamed fun decided => ?_
        obtain ⟨d, decision⟩ := Option.isSome_iff_exists.1 decided
        have called : f ∈ n.data.functionList := by simpa [NodeData.functionList, h] using member
        exact same ⟨n, f, d⟩ (List.mem_filterMap.2 ⟨f, called, by simp [decision]⟩)
      simp only [Option.map_some, List.map_map]
      exact congrArg some (List.map_congr_left each)
  simp only [FlowNode.settledBy, FlowNode.renamedAs, FlowNode.renamed, NodeData.settledBy,
    NodeData.renamed, functions]
  rfl

/-- Only the places of decisions count. -/
theorem FlowNode.settledBy_congr (same : ∀ owner function,
    place' (Identifier.decisionId owner function) = place (Identifier.decisionId owner function))
    (n : FlowNode) : n.settledBy place' = n.settledBy place := by
  have function : (fun f : NodeFunction => f.settledBy place' n.id) =
      fun f => f.settledBy place n.id := by
    funext f
    rw [NodeFunction.settledBy, NodeFunction.settledBy, same]
  rw [FlowNode.settledBy, FlowNode.settledBy, NodeData.settledBy, NodeData.settledBy, function]

end

/-! ## Graphs of flows -/

namespace Graph

/-- The regular nodes of the graph are those of the flow, and every decision node stands for a
decision of theirs. -/
structure Draws (nodes : List Node) (ns : List FlowNode) : Prop where
  regular : regular nodes = ns.map Node.ofNode
  decisions : ∀ d ∈ nodes, d.isDecision → ∃ x ∈ ns.flatMap FlowNode.decidings, d.id = x.id

/-- Reconciling the nodes of a flow draws the flow. -/
theorem draws_of_reconcile {settings : Settings} {ns : List FlowNode} {r : Reconciled}
    (lawful : ∀ n ∈ ns, n.Lawful) (h : reconcile settings (ns.map Node.ofNode) = .ok r) :
    Draws r.nodes ns := by
  have spec := reconciles_of_reconcile h
  refine ⟨?_, fun d member decision => ?_⟩
  · rw [spec.regular]
    exact List.filter_eq_self.2 (by simp)
  · obtain ⟨o, among, id⟩ := (spec.ids d.id).1 (mem_decisionIds.2 ⟨d, member, decision, rfl⟩)
    obtain ⟨n, owner, same⟩ := List.mem_map.1 among.owner
    have owned : o ∈ n.decidings.map Deciding.owned :=
      (mem_ownedBy (ownedBy_ofNode (lawful n owner))).2 ⟨same.symm, { among with
        owner := same ▸ .head _ }⟩
    obtain ⟨x, here, rfl⟩ := List.mem_map.1 owned
    exact ⟨x, List.mem_flatMap.2 ⟨n, owner, here⟩, by rw [← id, x.id_owned]⟩

variable {nodes : List Node} {ns : List FlowNode}

/-- A node drawn that is no decision is drawn from a node of the flow. -/
theorem Draws.mem (draws : Draws nodes ns) {m : Node} (member : m ∈ nodes)
    (notDecision : m.isDecision = false) : ∃ n ∈ ns, m = Node.ofNode n := by
  have there := mem_regular.2 ⟨member, notDecision⟩
  rw [draws.regular] at there
  obtain ⟨n, owner, rfl⟩ := List.mem_map.1 there
  exact ⟨n, owner, rfl⟩

theorem Draws.ofNode_mem (draws : Draws nodes ns) {n : FlowNode} (owner : n ∈ ns) :
    Node.ofNode n ∈ nodes := by
  have there : Node.ofNode n ∈ Graph.regular nodes := draws.regular ▸ List.mem_map_of_mem owner
  exact (mem_regular.1 there).1

/-- A node whose id is no managed one is a regular node. -/
theorem Draws.exists_of_id (draws : Draws nodes ns) {m : Node} (member : m ∈ nodes)
    (unmanaged : Identifier.isManaged m.id = false) : ∃ n ∈ ns, m = Node.ofNode n := by
  cases decision : m.isDecision with
  | false => exact draws.mem member decision
  | true =>
    obtain ⟨x, -, same⟩ := draws.decisions m member decision
    rw [same] at unmanaged
    exact absurd ((Identifier.isManaged_decisionId _ _).symm.trans unmanaged) (by decide)

/-- Among ids that name no decisions, those drawn are those of the flow. -/
theorem Draws.mem_ids (draws : Draws nodes ns) {id : String}
    (unmanaged : Identifier.isManaged id = false) :
    id ∈ nodes.map (·.id) ↔ id ∈ ns.map (·.id) := by
  constructor
  · intro there
    obtain ⟨m, member, rfl⟩ := List.mem_map.1 there
    obtain ⟨n, owner, rfl⟩ := draws.exists_of_id member unmanaged
    exact List.mem_map.2 ⟨n, owner, rfl⟩
  · intro there
    obtain ⟨n, owner, rfl⟩ := List.mem_map.1 there
    exact List.mem_map.2 ⟨Node.ofNode n, draws.ofNode_mem owner, rfl⟩

end Graph

namespace Edit

open Dialogue.Graph (Node Draws decisionPosition? toFlow)

variable {nodes : List Node} {ns : List FlowNode}

/-- The node of a known id is found as it was drawn. -/
theorem ownNode_of_mem (draws : Draws nodes ns) {id : String}
    (unmanaged : Identifier.isManaged id = false) (known : id ∈ ns.map (·.id))
    (action : ManagedAction) : ∃ n ∈ ns, n.id = id ∧ ownNode action id nodes = .ok (.ofNode n) := by
  cases found : nodes.find? (·.id = id) with
  | none =>
    obtain ⟨m, member, same⟩ := List.mem_map.1 ((draws.mem_ids unmanaged).2 known)
    have other := List.find?_eq_none.1 found m member
    exact absurd same (by simpa using other)
  | some m =>
    have same : m.id = id := by simpa using List.find?_some found
    obtain ⟨n, owner, rfl⟩ :=
      draws.exists_of_id (List.mem_of_find?_eq_some found) (same ▸ unmanaged)
    exact ⟨n, owner, same, by simp [ownNode, findNode, found]⟩

/-- An id of no node is unknown to the canvas as well. -/
theorem ownNode_of_unknown (draws : Draws nodes ns) {id : String}
    (unmanaged : Identifier.isManaged id = false) (unknown : id ∉ ns.map (·.id))
    (action : ManagedAction) : ownNode action id nodes = .error (.unknownNode id) := by
  have none : nodes.find? (·.id = id) = none := by
    rw [List.find?_eq_none]
    intro m member same
    exact unknown ((draws.mem_ids unmanaged).1 (List.mem_map.2 ⟨m, member, by simpa using same⟩))
  simp [ownNode, findNode, none]

variable {es : Entries} {f : Flow}

/-! ## Deleting -/

/-- Decision nodes outlive their owner, and keep the places of all other decisions. -/
theorem decisionPosition?_delete {id : String} (unmanaged : Identifier.isManaged id = false)
    (nodes : List Node) (owner function : String) :
    decisionPosition? (nodes.filter fun n => n.id != id) (Identifier.decisionId owner function) =
      decisionPosition? nodes (Identifier.decisionId owner function) := by
  have other : Identifier.decisionId owner function ≠ id := by
    rintro rfl
    exact absurd ((Identifier.isManaged_decisionId _ _).symm.trans unmanaged) (by decide)
  rw [decisionPosition?, decisionPosition?, ← List.filter_reverse, List.find?_filter]
  refine congrArg (Option.map _) (List.find?_congr fun n _ => ?_)
  by_cases same : n.id = Identifier.decisionId owner function <;> simp [same, other]

/-- Deleting on the canvas and saving gives what deleting in the saved flow gives. -/
theorem delete_agrees (held : f.HeldBy es) (draws : Draws nodes ns)
    (writable : ∀ n ∈ ns, n.Writable) {id : String}
    (unmanaged : Identifier.isManaged id = false) :
    (do let edited ← deleteNode id nodes; toFlow (some (.map es)) edited) =
      delete id (f.withNodes (ns.map (·.settledBy (decisionPosition? nodes)))).gathered := by
  have settled : ∀ m ∈ ns.map (·.settledBy (decisionPosition? nodes)), m.Writable := by
    rw [List.forall_mem_map]
    exact fun n member => (writable n member).settledBy _
  have ids : (ns.map (·.settledBy (decisionPosition? nodes))).map (·.id) = ns.map (·.id) := by
    rw [List.map_map]
    rfl
  rw [delete_gathered unmanaged settled, ids]
  by_cases known : id ∈ ns.map (·.id)
  · obtain ⟨n, -, -, own⟩ := ownNode_of_mem draws unmanaged known .delete
    have regular : Graph.regular (nodes.filter fun n => n.id != id) =
        (ns.filter (·.id != id)).map Node.ofNode := by
      rw [Graph.regular, List.filter_comm, ← Graph.regular, draws.regular, List.filter_map]
      rfl
    have left : ∀ n ∈ ns.filter (·.id != id), n.Writable :=
      fun n member => writable n (List.mem_filter.1 member).1
    have kept : (ns.filter (·.id != id)).map
        (·.settledBy (decisionPosition? (nodes.filter fun n => n.id != id))) =
        (ns.map (·.settledBy (decisionPosition? nodes))).filter (·.id != id) := by
      rw [List.filter_map]
      exact List.map_congr_left fun n _ =>
        FlowNode.settledBy_congr (decisionPosition?_delete unmanaged nodes) n
    simp only [deleteNode, own, ok_bind, known, if_true, liftM_eq_lift,
      Flow.toFlow_of_regular held left regular, kept, lift_ok]
  · simp only [deleteNode, ownNode_of_unknown draws unmanaged known, error_bind, known, if_false]

/-! ## Renaming -/

/-- The node with the new id in the references of its functions. -/
def retargeted (r : Renaming) (n : Node) : Node :=
  if n.isDecision then n else { n with data := r.inData n.data }

/-- A node is left alone where no function mentions the old id. -/
theorem retargeted_of_fixed {r : Renaming} {n : Node}
    (fixed : onItems (onMap r.inFunction) (n.data.get "functions") = n.data.get "functions") :
    retargeted r n = n := by
  have same : r.inData n.data = n.data :=
    Entries.modify_of_fixed fun d found => by rwa [Entries.get_of_get? found] at fixed
  simp [retargeted, same]

theorem retargetNode_ofNode (r : Renaming) {n : FlowNode} (writable : n.Writable) :
    retargetNode r (.ofNode n) = .ok (retargeted r (.ofNode n)) := by
  have stands : (Node.ofNode n).data.get "functions" =
      ofOption (n.data.functions.map (listOf NodeFunction.document)) :=
    NodeData.get_functions writable.others
  have unchanged := retargeted_of_fixed (r := r) (n := .ofNode n)
  simp only [retargetNode, Graph.isDecision_ofNode, Bool.not_false, Bool.true_and]
  rw [stands] at unchanged ⊢
  cases h : n.data.functions with
  | none =>
    rw [h] at unchanged
    rw [unchanged rfl]
    rfl
  | some fs =>
    rw [h] at stands unchanged
    have shown : List.Forall₂ NodeFunction.ShownIn (fs.map NodeFunction.document) fs := by
      rw [List.forall₂_map_left_iff, List.forall₂_same]
      exact fun f _ => f.shownIn_document
    obtain ⟨count, counted⟩ := Renaming.exists_countReferences r.old shown
    have run : (fs.map NodeFunction.document).mapM r.function =
        .ok ((fs.map NodeFunction.document).map (onMap r.inFunction)) := by
      refine mapM_eq_map fun d member => ?_
      obtain ⟨f, -, rfl⟩ := List.mem_map.1 member
      exact Renaming.function_of_shownIn r f.shownIn_document
    simp only [Option.map_some, ofOption, Option.getD_some, listOf, counted, ok_bind]
      at stands unchanged ⊢
    split
    case isTrue some =>
      split
      case isTrue none =>
        rw [unchanged (Renaming.onItems_of_countReferences (none ▸ counted))]
      case isFalse =>
        have found := Entries.get?_of_get stands (by simp)
        simp [Renaming.functions, Document.changeItems, run, retargeted, Renaming.inData,
          Entries.modify_of_get? found, onItems]
    case isFalse none =>
      obtain rfl : fs = [] := by cases fs <;> simp_all [Document.isTrue]
      rw [unchanged rfl]

/-- On a drawn flow the rewriting of references never fails. -/
theorem retargetNodes_of_draws (r : Renaming) (draws : Draws nodes ns)
    (writable : ∀ n ∈ ns, n.Writable) :
    retargetNodes r nodes = .ok (nodes.map (retargeted r)) := by
  refine mapM_eq_map fun m member => ?_
  cases decision : m.isDecision with
  | true => simp [retargetNode, retargeted, decision]
  | false =>
    obtain ⟨n, owner, rfl⟩ := draws.mem member decision
    exact retargetNode_ofNode r (writable n owner)

/-- The functions of a node with a decision are those that own a decision node. -/
theorem decidingNames_ofNode {n : FlowNode} (lawful : n.Lawful) :
    decidingNames (.ofNode n) =
      .ok ((n.decidings.map (·.function.name)).map .text) := by
  have names : ((n.data.functionList.map NodeFunction.entries).filter
      fun f => (f.get "decision").isTrue).map (fun f => f.get "name") =
      (n.decidings.map (·.function.name)).map .text := by
    rw [FlowNode.decidings]
    induction n.data.functionList with
    | nil => rfl
    | cons f fs ih =>
      have truth := f.shownBy_entries.decision.isTrue
      cases h : f.decision <;> simp_all
  simp only [decidingNames, Graph.functions_ofNode lawful, ok_bind, names]

/-! ### The renamed graph -/

/-- Nodes that are changed in place, with other ids, keep the places of decisions. -/
theorem decisionPosition?_map {g : Node → Node} (sort : ∀ n, (g n).isDecision = n.isDecision)
    (position : ∀ n, (g n).position = n.position) {id id' : String}
    (same : ∀ n ∈ nodes, n.isDecision → ((g n).id = id' ↔ n.id = id)) :
    decisionPosition? (nodes.map g) id' = decisionPosition? nodes id := by
  have found : nodes.reverse.find? ((fun n => n.isDecision && n.id = id') ∘ g) =
      nodes.reverse.find? (fun n => n.isDecision && n.id = id) := by
    refine List.find?_congr fun n member => ?_
    have same := same n (List.mem_reverse.1 member)
    cases decision : n.isDecision <;> simp_all
  rw [decisionPosition?, decisionPosition?, ← List.map_reverse, List.find?_map, found,
    Option.map_map]
  exact congrArg (Option.map · _) (funext position)

/-- The node with the new id, if it had the old one or belongs to the node that had. -/
def rekeyed (r : Renaming) (names : List String) (m : Node) : Node :=
  renamed r (names.map .text) (retargeted r m)

@[simp] theorem isDecision_rekeyed (r : Renaming) (names : List String) (m : Node) :
    (rekeyed r names m).isDecision = m.isDecision := by
  rw [rekeyed, isDecision_renamed, retargeted]
  split <;> rfl

@[simp] theorem position_rekeyed (r : Renaming) (names : List String) (m : Node) :
    (rekeyed r names m).position = m.position := by
  have kept : (retargeted r m).position = m.position := by
    unfold retargeted
    split <;> rfl
  rw [← kept, rekeyed]
  unfold renamed
  split
  · split <;> rfl
  · split <;> rfl

/-- A node of the flow is drawn as the renamed node. -/
theorem rekeyed_ofNode (r : Renaming) (names : List String) {n : FlowNode}
    (writable : n.Writable) : rekeyed r names (.ofNode n) = .ofNode (n.renamedAs r) := by
  have data : r.inData n.data.entries = (n.data.renamed r).entries :=
    NodeData.entries_renamed r writable.others
  have role : (n.data.renamed r).role = n.data.role := rfl
  have referring : retargeted r (.ofNode n) = .ofNode (n.renamed r) := by
    rw [retargeted, if_neg (by simp)]
    simp [Node.ofNode, FlowNode.renamed, data, role]
  rw [rekeyed, referring, renamed_of_regular (Graph.isDecision_ofNode _)]
  by_cases same : n.id = r.old <;>
    simp [Node.ofNode, FlowNode.renamedAs, FlowNode.renamed, Renaming.id, same]

section

variable {r : Renaming} {n : FlowNode}

/-- A decision node follows its owner, if that is the node renamed. -/
theorem id_rekeyed (lawful : ∀ m ∈ ns, m.Lawful) (nodup : (ns.map (·.id)).Nodup) (owner : n ∈ ns)
    (old : n.id = r.old) {d : Node} (decision : d.isDecision) {x : Deciding}
    (among : x ∈ ns.flatMap FlowNode.decidings) (stands : d.id = x.id) :
    (rekeyed r (n.decidings.map (·.function.name)) d).id =
      Identifier.decisionId (r.id x.node.id) x.function.name := by
  obtain ⟨m, there, member⟩ := List.mem_flatMap.1 among
  have node := node_of_mem_decidings member
  have free : Identifier.HyphenFree r.old :=
    old ▸ Identifier.hyphenFree_of_isIdentifier (lawful n owner).id
  have kept : retargeted r d = d := by simp [retargeted, decision]
  simp only [rekeyed, kept, renamed, decision, Bool.not_true, Bool.false_eq_true, if_false, stands,
    Deciding.id, node]
  by_cases same : m.id = r.old
  · obtain rfl : m = n := List.inj_on_of_nodup_map nodup there owner (same.trans old.symm)
    rw [same, ownedId?_own free (List.mem_map_of_mem member), Renaming.id, if_pos rfl]
  · have mFree := Identifier.hyphenFree_of_isIdentifier (lawful m there).id
    rw [ownedId?_other free mFree fun own => absurd own same, Renaming.id, if_neg same, stands,
      Deciding.id, node]

/-- Beside the decisions, the canvas draws the renamed flow. -/
theorem regular_rekeyed (draws : Draws nodes ns) (lawful : ∀ m ∈ ns, m.Lawful)
    (names : List String) :
    Graph.regular (nodes.map (rekeyed r names)) = (ns.map (·.renamedAs r)).map Node.ofNode := by
  have sorts : Graph.regular (nodes.map (rekeyed r names)) =
      (Graph.regular nodes).map (rekeyed r names) := by
    simp only [Graph.regular, List.filter_map, Function.comp_def, isDecision_rekeyed]
  rw [sorts, draws.regular, List.map_map, List.map_map]
  exact List.map_congr_left fun m there => rekeyed_ofNode r _ (lawful m there).writable

/-- The key of a decision changes as the id of its node does, so its place is found again. -/
theorem decisionPosition?_rekeyed (draws : Draws nodes ns) (lawful : ∀ m ∈ ns, m.Lawful)
    (nodup : (ns.map (·.id)).Nodup) (owner : n ∈ ns) (old : n.id = r.old)
    (free : Identifier.HyphenFree r.new) (fresh : r.new ≠ r.old → r.new ∉ ns.map (·.id))
    {m : FlowNode} (there : m ∈ ns) {x : Deciding} (member : x ∈ m.decidings) :
    decisionPosition? (nodes.map (rekeyed r (n.decidings.map (·.function.name))))
      (Identifier.decisionId (r.id m.id) x.function.name) = decisionPosition? nodes x.id := by
  have ownFree : ∀ m ∈ ns, Identifier.HyphenFree m.id := fun m there =>
    Identifier.hyphenFree_of_isIdentifier (lawful m there).id
  have newFree : ∀ m ∈ ns, Identifier.HyphenFree (r.id m.id) := by
    intro m there
    unfold Renaming.id
    split
    · exact free
    · exact ownFree m there
  have apart : ∀ m ∈ ns, ∀ k ∈ ns, r.id m.id = r.id k.id → m.id = k.id := by
    intro m hm k hk same
    have hm := List.mem_map_of_mem (f := (·.id)) hm
    have hk := List.mem_map_of_mem (f := (·.id)) hk
    unfold Renaming.id at same
    grind
  refine decisionPosition?_map (isDecision_rekeyed r _) (position_rekeyed r _) ?_
  intro d found decision
  obtain ⟨y, among, stands⟩ := draws.decisions d found decision
  obtain ⟨k, hk, here⟩ := List.mem_flatMap.1 among
  rw [id_rekeyed lawful nodup owner old decision among stands, stands, Deciding.id, Deciding.id,
    node_of_mem_decidings here, node_of_mem_decidings member]
  constructor
  · intro same
    obtain ⟨ids, names⟩ := Identifier.decisionId_inj (newFree k hk) (newFree m there) same
    rw [apart k hk m there ids, names]
  · intro same
    obtain ⟨ids, names⟩ := Identifier.decisionId_inj (ownFree k hk) (ownFree m there) same
    rw [ids, names]

/-- Gathering the renamed graph gives the flow renamed. -/
theorem toFlow_rekeyed (held : f.HeldBy es) (draws : Draws nodes ns)
    (lawful : ∀ m ∈ ns, m.Lawful) (nodup : (ns.map (·.id)).Nodup) (owner : n ∈ ns)
    (old : n.id = r.old) (free : Identifier.HyphenFree r.new)
    (fresh : r.new ≠ r.old → r.new ∉ ns.map (·.id)) :
    toFlow (some (.map es)) (nodes.map (rekeyed r (n.decidings.map (·.function.name)))) =
      .ok (f.withNodes ((ns.map (·.settledBy (decisionPosition? nodes))).map
        (·.renamedAs r))).gathered := by
  have writable : ∀ m ∈ ns.map (·.renamedAs r), m.Writable := by
    rw [List.forall_mem_map]
    exact fun m there => (lawful m there).writable.renamedAs r
  have settled : (ns.map (·.renamedAs r)).map (·.settledBy (decisionPosition?
        (nodes.map (rekeyed r (n.decidings.map (·.function.name)))))) =
      (ns.map (·.settledBy (decisionPosition? nodes))).map (·.renamedAs r) := by
    rw [List.map_map, List.map_map]
    refine List.map_congr_left fun m there => FlowNode.settledBy_renamedAs fun x member => ?_
    exact decisionPosition?_rekeyed draws lawful nodup owner old free fresh there member
  rw [Flow.toFlow_of_regular held writable (regular_rekeyed draws lawful _), settled]

end

/-- The ids of decision nodes are never in the way of a new id. -/
theorem disambiguate_of_draws (draws : Draws nodes ns) {r : Renaming}
    (valid : Identifier.isIdentifier r.new) (attempts : Int) :
    Identifier.disambiguate r.new ((nodes.map (·.id)).filter (· != r.old)) attempts =
      Identifier.disambiguate r.new (r.others (ns.map (·.id))) attempts := by
  refine Identifier.disambiguate_congr attempts (Identifier.hyphenFree_of_isIdentifier valid)
    fun id free => ?_
  rw [Renaming.others, List.mem_filter, List.mem_filter,
    draws.mem_ids (Identifier.not_isManaged_of_hyphenFree free)]

/-- A node of a graph gets the id that it would get in the document. -/
theorem renameNode_of_draws (settings : Settings) (draws : Draws nodes ns)
    (lawful : ∀ m ∈ ns, m.Lawful) {r : Renaming} (ne : r.new ≠ r.old) {n : FlowNode}
    (owner : n ∈ ns) (old : n.id = r.old)
    (own : ownNode .rename r.old nodes = .ok (.ofNode n)) :
    renameNode settings r nodes = (do
      let final ← finalId settings r ((ns.map (·.id)).map .text)
      .ok (nodes.map (rekeyed ⟨r.old, final⟩ (n.decidings.map (·.function.name))))) := by
  have known : r.old ∈ ns.map (·.id) := List.mem_map.2 ⟨n, owner, old⟩
  have free : Identifier.HyphenFree r.old :=
    old ▸ Identifier.hyphenFree_of_isIdentifier (lawful n owner).id
  simp only [renameNode, own, ok_bind, if_neg ne, finalId_texts known free]
  cases valid : Identifier.isIdentifier r.new with
  | false => simp
  | true =>
    simp only [Bool.not_true, Bool.false_eq_true, if_false, if_true,
      disambiguate_of_draws draws valid]
    refine congrArg _ (funext fun final => ?_)
    have retargeted := retargetNodes_of_draws ⟨r.old, final⟩ draws
      fun m there => (lawful m there).writable
    simp only [decidingNames_ofNode (lawful n owner), retargeted, liftM_eq_lift, lift_ok, ok_bind]
    exact congrArg Except.ok List.map_map

/-- Renaming on the canvas and saving gives what renaming in the saved flow gives. -/
theorem rename_agrees (settings : Settings) (held : f.HeldBy es) (draws : Draws nodes ns)
    (lawful : ∀ m ∈ ns, m.Lawful) (nodup : (ns.map (·.id)).Nodup) {r : Renaming}
    (unmanaged : Identifier.isManaged r.old = false) :
    (do let edited ← renameNode settings r nodes; toFlow (some (.map es)) edited) =
      rename settings r (f.withNodes (ns.map (·.settledBy (decisionPosition? nodes)))).gathered := by
  have writable : ∀ m ∈ ns, m.Writable := fun m there => (lawful m there).writable
  have settled : ∀ m ∈ ns.map (·.settledBy (decisionPosition? nodes)), m.Writable := by
    rw [List.forall_mem_map]
    exact fun m there => (writable m there).settledBy _
  have ids : (ns.map (·.settledBy (decisionPosition? nodes))).map (·.id) = ns.map (·.id) := by
    rw [List.map_map]
    rfl
  have idsFree : ∀ id ∈ ns.map (·.id), Identifier.HyphenFree id := by
    rw [List.forall_mem_map]
    exact fun m there => Identifier.hyphenFree_of_isIdentifier (lawful m there).id
  rw [rename_gathered settings r settled (ids ▸ nodup), ids]
  by_cases known : r.old ∈ ns.map (·.id)
  · obtain ⟨n, owner, old, own⟩ := ownNode_of_mem draws unmanaged known .rename
    by_cases ne : r.new = r.old
    · have kept : (fun m : FlowNode => m.renamedAs ⟨r.old, r.old⟩) = fun m => m :=
        funext fun m => m.renamedAs_self r.old
      simp only [renameNode, own, ok_bind, finalId_texts known (idsFree _ known), ne, if_true,
        liftM_eq_lift, Flow.toFlow_of_regular held writable draws.regular, lift_ok, kept,
        List.map_id']
    · rw [renameNode_of_draws settings draws lawful ne owner old own]
      cases found : finalId settings r ((ns.map (·.id)).map .text) with
      | error e => rfl
      | ok final =>
        have planned := (finalId_spec idsFree found).2
        have free := hyphenFree_finalId idsFree found
        have gathers := toFlow_rekeyed (r := ⟨r.old, final⟩) held draws lawful nodup owner old free
          fun other => (planned other).1
        simp only [ok_bind, liftM_eq_lift, gathers, lift_ok]
  · simp only [renameNode, ownNode_of_unknown draws unmanaged known, error_bind,
      finalId_of_unknown known]

/-! ## Both edits -/

/-- What holds of a graph and of its document when edits of the one do what edits of the other do,
and fail where these fail. -/
structure Agrees (base : Document) (nodes : List Node) (doc : Document) : Prop where
  rename : ∀ (settings : Settings) (r : Renaming), Identifier.isManaged r.old = false →
    (do let edited ← renameNode settings r nodes; toFlow (some base) edited) =
      Edit.rename settings r doc
  delete : ∀ id : String, Identifier.isManaged id = false →
    (do let edited ← deleteNode id nodes; toFlow (some base) edited) = Edit.delete id doc

/-- Edits of the graph of a flow whose ids differ agree with edits of its document. Functions of a
node may share a name. -/
theorem agrees_of_read (settings : Settings) {raw : Document} {f : Flow}
    (read : Flow.ofDocument .use raw = .ok f) (ids : f.ids.Nodup) :
    ∃ nodes edges doc, Graph.ofFlow settings f.normalize.document = .ok (nodes, edges) ∧
      toFlow (some f.normalize.document) nodes = .ok doc ∧
      Agrees f.normalize.document nodes doc := by
  have lawful := (Flow.shownIn_of_check (Flow.ofDocument_eq_ok.1 read)).2.normalize.nodes
  have nodup : (f.normalize.nodes.map (·.id)).Nodup := by rwa [Flow.ids_normalize]
  have held := f.normalize.heldBy_entries
  obtain ⟨r, edges, reconciled, expands, -⟩ := Graph.exists_ofFlow settings held.nodes lawful
  have draws := Graph.draws_of_reconcile lawful reconciled
  have writable : ∀ n ∈ f.normalize.nodes, n.Writable := fun n member => (lawful n member).writable
  exact ⟨r.nodes, edges, _, expands, Flow.toFlow_of_regular held writable draws.regular,
    fun settings' _ => rename_agrees settings' held draws lawful nodup,
    fun _ => delete_agrees held draws writable⟩

theorem agrees_sample : ∃ nodes edges doc,
    Graph.ofFlow {} Flow.sample.normalize.document = .ok (nodes, edges) ∧
      toFlow (some Flow.sample.normalize.document) nodes = .ok doc ∧
      Agrees Flow.sample.normalize.document nodes doc :=
  agrees_of_read {} (Flow.ofDocument_eq_ok.2 Flow.check_sample) (by decide)

end Edit
end Dialogue
