import Dialogue.Proofs.Document.Same
import Dialogue.Proofs.Edit.Canvas
import Dialogue.Proofs.Graph.Expansion

/-!
# Editing sessions

A session starts with the graph of a flow and edits it, refreshing it after each edit. However the
edits come, ids stay apart, roles are those that the data show, and the decision nodes are those
that the functions call for.
-/

namespace Dialogue.Edit

open Dialogue.Graph (Node Edge Owned regular decisionIds)

/-- An edit with its arguments. -/
inductive Change where
  | update (id : String) (updates : Document)
  | clear (id : String) (index : Int)
  | attach (id : String) (index : Int) (decision : Document)
  | detach (id : String) (index : Int)
  | retarget (r : Renaming)
  | rename (settings : Settings) (r : Renaming)
  | delete (id : String)
  | duplicate (settings : Settings) (id : String)
  | drag (id : String) (position : Document)

/-- The nodes after an edit. A duplicate is appended. -/
def Change.apply (nodes : List Node) : Change → Outcome (List Node)
  | .update id updates => updateData id updates nodes
  | .clear id index => (clearTarget id index nodes).lift
  | .attach id index decision => (attachDecision decision id index nodes).lift
  | .detach id index => (detachDecision id index nodes).lift
  | .retarget r => (retargetNodes r nodes).lift
  | .rename settings r => renameNode settings r nodes
  | .delete id => deleteNode id nodes
  | .duplicate settings id => do
    let n ← findNode id nodes
    let copy ← duplicateNode settings n nodes
    .ok (nodes ++ [copy])
  | .drag id position => Graph.drag id position nodes

structure Session where
  nodes : List Node
  edges : List Edge

namespace Session

/-- An edit and the refresh after it. -/
def edit (s : Session) (c : Change) (settings : Settings) : Outcome Session := do
  let nodes ← c.apply s.nodes
  let (nodes, edges, _) ← Graph.refresh settings nodes s.edges
  .ok ⟨nodes, edges⟩

/-- An edit or a refresh that fails leaves the session as it is. -/
def step (s : Session) (e : Change × Settings) : Session :=
  match s.edit e.1 e.2 with
  | .ok t => t
  | .error _ => s

def run (s : Session) (edits : List (Change × Settings)) : Session := edits.foldl step s

end Session

/-- What holds of the nodes in every state of a session. -/
structure Sound (nodes : List Node) : Prop where
  /-- No two nodes have the same id. -/
  ids : (nodes.map (·.id)).Nodup
  /-- Regular nodes have the role that their data show. -/
  roles : ∀ n ∈ nodes, n.isDecision = false →
    ∃ role, Role.derive (.map n.data) = .ok role ∧ n.kind = role.name
  /-- There is a decision node for every named function with a decision, and for no other. -/
  decisions : ∀ id, (∃ d ∈ nodes, d.isDecision ∧ d.id = id) ↔
    ∃ o : Owned, o.Among nodes ∧ o.id = id
  /-- A decision node shows the summary of such a function. -/
  summaries : ∀ d ∈ nodes, d.isDecision → ∃ o : Owned, o.Among nodes ∧ o.id = d.id ∧
    ∃ summary, o.summary = .ok summary ∧ ∀ key value, (.text key, value) ∈ summary →
      value.Defined → (d.data.get key).alike value

/-! ## The invariant -/

/-- Tidy nodes, with the decision nodes that reconciling would give. -/
structure Steady (nodes : List Node) : Prop where
  tidy : Tidy nodes
  reconciled : Graph.Reconciles nodes nodes

/-- A node that shows a summary compares as equal to it. -/
theorem alike_of_shows {d : Node} {o : Owned} {s : Entries} (summary : o.summary = .ok s)
    (shows : d.Shows s) {key : String} {value : Document} (member : (.text key, value) ∈ s)
    (defined : value.Defined) : (d.data.get key).alike value := by
  rcases shows with rfl | fitting
  · rw [Graph.get_of_mem_summary summary member]
    exact Document.alike_of_same (Document.same_refl value) defined
  · have all := List.any_eq_false.1 fitting _ member
    simpa using all

theorem Steady.nodup {nodes : List Node} (steady : Steady nodes) : (nodes.map (·.id)).Nodup := by
  have parts : (decisionIds nodes ++ (regular nodes).map (·.id)).Perm (nodes.map (·.id)) := by
    rw [decisionIds, ← List.map_append]
    exact (List.filter_append_perm _ nodes).map _
  refine parts.nodup_iff.1 (steady.reconciled.nodup.append steady.tidy.nodup ?_)
  -- The ids of decision nodes hold hyphens, those of regular nodes none.
  intro id managed own
  obtain ⟨o, -, rfl⟩ := (steady.reconciled.ids id).1 managed
  obtain ⟨n, member, same⟩ := List.mem_map.1 own
  exact Identifier.not_hyphenFree_decisionId _ _ (same ▸ steady.tidy.free n member)

theorem Steady.sound {nodes : List Node} (steady : Steady nodes) : Sound nodes where
  ids := steady.nodup
  roles n member notDecision := steady.tidy.roles n (Graph.mem_regular.2 ⟨member, notDecision⟩)
  decisions id := by rw [← Graph.mem_decisionIds, steady.reconciled.ids]
  summaries d member decision := by
    obtain ⟨o, among, id, s, summary, shows⟩ := steady.reconciled.shows d member decision
    exact ⟨o, among, id, s, summary, fun key value => alike_of_shows summary shows⟩

/-- Every edit that succeeds keeps the nodes tidy. -/
theorem Tidy.apply {nodes nodes' : List Node} (tidy : Tidy nodes) {c : Change}
    (h : c.apply nodes = .ok nodes') : Tidy nodes' := by
  cases c with
  | update id updates => exact tidy.of_keeps (keeps_updateData h)
  | clear id index => exact tidy.of_keeps (keeps_withFunction (lift_eq_ok.1 h))
  | attach id index decision => exact tidy.of_keeps (keeps_withFunction (lift_eq_ok.1 h))
  | detach id index => exact tidy.of_keeps (keeps_withFunction (lift_eq_ok.1 h))
  | retarget r => exact tidy.of_keeps (keeps_retargetNodes (lift_eq_ok.1 h))
  | rename settings r => exact tidy_renameNode tidy h
  | delete id => exact tidy_deleteNode tidy h
  | duplicate settings id =>
    obtain ⟨n, -, h⟩ := bind_eq_ok.1 h
    obtain ⟨copy, made, h⟩ := bind_eq_ok.1 h
    obtain rfl := Except.ok.inj h
    exact tidy_duplicateNode tidy made
  | drag id position => exact tidy.of_keeps (keeps_drag tidy h)

/-- Reconciling a tidy canvas makes it steady. -/
theorem Tidy.steady_of_reconcile {settings : Settings} {nodes : List Node} {r : Graph.Reconciled}
    (tidy : Tidy nodes) (h : Graph.reconcile settings nodes = .ok r) : Steady r.nodes := by
  have reconciles := Graph.reconciles_of_reconcile h
  refine ⟨⟨?_, ?_, ?_⟩, reconciles.self⟩ <;> rw [reconciles.regular]
  · exact tidy.nodup
  · exact tidy.free
  · exact tidy.roles

/-! ## Runs -/

namespace Session

/-- Every edit that succeeds leaves the canvas steady. -/
theorem steady_edit {s t : Session} {c : Change} {settings : Settings} (steady : Steady s.nodes)
    (h : s.edit c settings = .ok t) : Steady t.nodes := by
  obtain ⟨nodes, applied, h⟩ := bind_eq_ok.1 h
  obtain ⟨⟨refreshed, edges, changed⟩, refresh, h⟩ := bind_eq_ok.1 h
  obtain ⟨r, reconciled, refresh⟩ := bind_eq_ok.1 (lift_eq_ok.1 refresh)
  obtain ⟨derived, -, refresh⟩ := bind_eq_ok.1 refresh
  obtain ⟨rfl, -⟩ := Prod.mk.inj (Except.ok.inj refresh)
  obtain rfl := Except.ok.inj h
  exact (steady.tidy.apply applied).steady_of_reconcile reconciled

/-- An edit that fails leaves it as it was. -/
theorem steady_step {s : Session} (steady : Steady s.nodes) (e : Change × Settings) :
    Steady (s.step e).nodes := by
  unfold step
  split
  case h_1 h => exact steady_edit steady h
  case h_2 => exact steady

/-- So the canvas is steady after any run of edits. -/
theorem steady_run {s : Session} (steady : Steady s.nodes) (edits : List (Change × Settings)) :
    Steady (s.run edits).nodes := by
  induction edits generalizing s with
  | nil => exact steady
  | cons e edits ih => exact ih (steady_step steady e)

/-- The nodes of a flow with distinct ids are tidy. -/
theorem tidy_ofNodes {f : Flow} (lawful : f.Lawful) (ids : f.ids.Nodup) :
    Tidy (f.nodes.map Node.ofNode) := by
  have all : regular (f.nodes.map Node.ofNode) = f.nodes.map Node.ofNode :=
    List.filter_eq_self.2 (by simp)
  refine ⟨?_, ?_, ?_⟩ <;> rw [all]
  · rwa [List.map_map]
  · exact List.forall_mem_map.2 fun n member => lawful.hyphenFree n.id (List.mem_map_of_mem member)
  · exact List.forall_mem_map.2 fun n member =>
      ⟨n.data.role, (NodeData.shownBy_entries (lawful.nodes n member).others).role, rfl⟩

/-- The graph of a flow whose ids are distinct is sound, and so it is after any edits. -/
theorem sound_run (settings : Settings) {raw : Document} {f : Flow}
    (read : Flow.ofDocument .use raw = .ok f) (ids : f.ids.Nodup) :
    ∃ nodes edges, Graph.ofFlow settings f.normalize.document = .ok (nodes, edges) ∧
      ∀ edits, Sound (run ⟨nodes, edges⟩ edits).nodes := by
  have lawful := (Flow.shownIn_of_check (Flow.ofDocument_eq_ok.1 read)).2.normalize
  have ids : f.normalize.ids.Nodup := by rwa [Flow.ids, Flow.ids_normalize]
  obtain ⟨r, edges, reconciled, expands, -⟩ :=
    Graph.exists_ofFlow settings (Flow.get_nodes f.normalize) lawful.nodes
  have steady := (tidy_ofNodes lawful ids).steady_of_reconcile reconciled
  exact ⟨r.nodes, edges, expands, fun edits => (steady_run steady edits).sound⟩

theorem sound_run_sample : ∃ nodes edges,
    Graph.ofFlow {} Flow.sample.normalize.document = .ok (nodes, edges) ∧
      ∀ edits, Sound (run ⟨nodes, edges⟩ edits).nodes :=
  sound_run {} (Flow.ofDocument_eq_ok.2 Flow.check_sample) (by decide)

end Session

end Dialogue.Edit
