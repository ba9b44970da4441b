import Dialogue.Proofs.Graph.Reconcile

/-!
# Calm graphs

A graph is calm when reconciling leaves it as it is. That depends on the ids and the summaries of
its decisions and on what its decision nodes show, so a change that keeps these, as another position
in a decision does, keeps a graph calm.
-/

namespace Dialogue.Graph

variable {settings : Settings} {ns ns' : List Node} {calls calls' : List Owned}

/-- Every decision has one node, which shows it, and there are no other decision nodes. -/
structure Calm (calls : List Owned) (ns : List Node) : Prop where
  calling : callsOf ns = .ok calls
  nodup : (decisionIds ns).Nodup
  ids : ∀ id, id ∈ decisionIds ns ↔ id ∈ callIds calls
  shows : ∀ n ∈ ns, n.isDecision → n.ShowsLast calls

/-- All nodes stay where none leaves. -/
theorem staying_of_leaving {before : List Node} (none : leaving calls before ns = []) :
    staying calls before ns = ns := by
  induction ns generalizing before with
  | nil => rfl
  | cons n ns ih =>
    rw [leaving_cons] at none
    split at none
    case isTrue stay => rw [staying_cons, if_pos stay, ih none]
    case isFalse => cases none

/-- A canvas that reconciling does not change is calm. -/
theorem calm_of_reconcile {r : Reconciled} (h : reconcile settings ns = .ok r)
    (unchanged : r.changed = false) : ∃ calls, Calm calls ns := by
  have spec := reconciles_of_reconcile h
  obtain ⟨calls, built, calling, summaries, builds, rfl⟩ := parts_of_reconcile h
  simp only [Reconciled.changed, outcome, Bool.not_eq_false', Bool.and_eq_true, List.isEmpty_iff,
    List.map_eq_nil_iff] at unchanged
  obtain ⟨⟨none, current⟩, gone⟩ := unchanged
  rw [none] at builds
  cases builds
  have stay := staying_of_leaving gone
  rw [stay] at current summaries
  have current : ∀ n ∈ ns, isOutdated calls n = false := by
    simpa [List.filter_eq_nil_iff] using current
  have same : ns.map (refreshed calls) = ns := by
    rw [List.map_congr_left fun n member => refreshed_of_current (current n member), List.map_id']
  have nodes : (outcome calls [] ns).nodes ++ [] = ns := by
    rw [outcome, stay, same, List.append_nil]
  simp only [nodes] at spec
  refine ⟨calls, calling, spec.nodup, fun id => ?_, fun n member decision => ?_⟩
  · rw [spec.ids, mem_callIds]
    simp only [mem_callsOf calling]
  · obtain ⟨s, summary⟩ := summaries n member decision
    exact showsLast_of_current decision summary (current n member)

theorem Calm.mem_calls (calm : Calm calls ns) {o : Owned} : o ∈ calls ↔ o.Among ns :=
  mem_callsOf calm.calling

/-- And a calm canvas is not changed. -/
theorem Calm.reconcile_eq (calm : Calm calls ns) (settings : Settings) :
    reconcile settings ns = .ok { nodes := ns } :=
  reconcile_of_settled calm.calling calm.nodup calm.ids calm.shows settings

/-! ## What decision nodes show -/

/-- The keys of a summary. -/
def summaryKeys : List String :=
  ["label", "action", "condition_count", "source_node_id", "function_name"]

/-- A node is up to date if it shows what the summary says under each of its keys. -/
theorem isStale_eq_false_iff {o : Owned} {s : Entries} (summary : o.summary = .ok s) {x : Node} :
    isStale x s = false ↔ ∀ key ∈ summaryKeys, (x.data.get key).alike (s.get key) := by
  obtain ⟨conditions, -, h⟩ := bind_eq_ok.1 summary
  obtain rfl := Except.ok.inj h
  simp [isStale, summaryKeys, Entries.get]

/-! ## The decisions of a node -/

/-- The decision of a function with a name. -/
def ownedOf? (n : Node) (f : Entries) : Option Owned :=
  match f.get "decision" with
  | .map decision => if (f.get "name").isTrue then some ⟨n, f, decision⟩ else none
  | _ => none

theorem ownedBy_of_functions {n : Node} (notDecision : n.isDecision = false) {fs : List Entries}
    (functions : n.functions = .ok fs) : ownedBy n = .ok (fs.filterMap (ownedOf? n)) := by
  simp [ownedBy, notDecision, functions, ownedOf?]
  rfl

/-- A regular node whose decisions are found has functions that can be read. -/
theorem functions_of_ownedBy {n : Node} {os : List Owned} (owned : ownedBy n = .ok os)
    (notDecision : n.isDecision = false) :
    ∃ fs, n.functions = .ok fs ∧ fs.filterMap (ownedOf? n) = os := by
  have whole := owned
  unfold ownedBy at owned
  rw [notDecision, if_neg (by decide)] at owned
  obtain ⟨fs, functions, -⟩ := bind_eq_ok.1 owned
  rw [ownedBy_of_functions notDecision functions] at whole
  exact ⟨fs, functions, Except.ok.inj whole⟩

theorem exists_functions (calling : callsOf ns = .ok calls) {n : Node} (member : n ∈ ns)
    (notDecision : n.isDecision = false) : ∃ fs, n.functions = .ok fs := by
  obtain ⟨oss, run, -⟩ := bind_eq_ok.1 calling
  obtain ⟨os, -, owned⟩ := exists_of_mem_left (mapM_eq_ok.1 run) member
  obtain ⟨fs, functions, -⟩ := functions_of_ownedBy owned notDecision
  exact ⟨fs, functions⟩

/-! ## Decisions changed one by one -/

/-- Whatever decisions the first node has, the second has as many, each related to its own. -/
def CallsBy (R : Owned → Owned → Prop) (n m : Node) : Prop :=
  ∀ os, ownedBy n = .ok os → ∃ os', ownedBy m = .ok os' ∧ List.Forall₂ R os os'

/-- Nodes own related decisions if their functions do, one by one. -/
theorem CallsBy.of_functions {R : Owned → Owned → Prop} {n m : Node}
    (same : m.isDecision = n.isDecision)
    (each : n.isDecision = false → ∀ fs, n.functions = .ok fs → ∃ gs, m.functions = .ok gs ∧
      List.Forall₂ (fun f g => Option.Rel R (ownedOf? n f) (ownedOf? m g)) fs gs) :
    CallsBy R n m := by
  intro os owned
  cases decision : n.isDecision with
  | true =>
    obtain rfl : os = [] := by simpa [ownedBy, decision] using owned.symm
    exact ⟨[], by simp [ownedBy, same, decision], .nil⟩
  | false =>
    obtain ⟨fs, functions, rfl⟩ := functions_of_ownedBy owned decision
    obtain ⟨gs, functions', related⟩ := each decision fs functions
    exact ⟨_, ownedBy_of_functions (same.trans decision) functions',
      List.rel_filterMap (fun _ _ h => h) related⟩

/-- So for all nodes of a canvas. -/
theorem callsOf_of_forall₂ {R : Owned → Owned → Prop} (each : List.Forall₂ (CallsBy R) ns ns')
    (calling : callsOf ns = .ok calls) :
    ∃ calls', callsOf ns' = .ok calls' ∧ List.Forall₂ R calls calls' := by
  induction each generalizing calls with
  | nil =>
    obtain rfl := Except.ok.inj calling
    exact ⟨[], rfl, .nil⟩
  | cons here _ ih =>
    rw [callsOf_cons] at calling
    obtain ⟨os, owned, calling⟩ := bind_eq_ok.1 calling
    obtain ⟨rest, others, calling⟩ := bind_eq_ok.1 calling
    obtain rfl := Except.ok.inj calling
    obtain ⟨os', owned', related⟩ := here os owned
    obtain ⟨rest', others', more⟩ := ih others
    exact ⟨os' ++ rest', by simp [callsOf_cons, owned', others'], List.rel_append related more⟩

/-- Where two ids stand for one another, so do their last decisions. -/
theorem exists_lastCall? {R : Owned → Owned → Prop} (related : List.Forall₂ R calls calls')
    {id : String} {o : Owned} (last : lastCall? calls id = some o) (id' : String)
    (same : ∀ o o', R o o' → (o'.id = id' ↔ o.id = id)) :
    ∃ o', lastCall? calls' id' = some o' ∧ R o o' := by
  have reversed : List.Forall₂ R calls.reverse calls'.reverse := List.rel_reverse related
  unfold lastCall? at last ⊢
  generalize calls.reverse = xs, calls'.reverse = xs' at reversed last
  induction reversed with
  | nil => cases last
  | @cons p p' _ _ here _ ih =>
    by_cases found : p.id = id
    · obtain rfl : p = o := by simpa [found] using last
      exact ⟨p', by simp [(same p p' here).2 found], here⟩
    · simpa [mt (same p p' here).1 found] using ih (by simpa [found] using last)

/-- A decision that keeps its id and what its node has to show. -/
structure Owned.Alike (o o' : Owned) : Prop where
  id : o'.id = o.id
  summary : o'.summary = o.summary

/-- A decision says the same of itself wherever its node stands. -/
theorem Owned.alike_position {n m : Node} (id : m.id = n.id) (p : Position) (f d : Entries) :
    Owned.Alike ⟨n, f, d⟩
      ⟨m, f.put "decision" (.map (Entries.put d "decision_node_position" p.document)),
        d.put "decision_node_position" p.document⟩ where
  id := by simp [Owned.id, Owned.name, Entries.get_put, id]
  summary := by simp [Owned.summary, Owned.name, Entries.get_put, Entries.get?_put, id]

/-- A node that keeps its id and its decisions, and that shows the same if it is a decision node. -/
structure Node.Alike (n m : Node) : Prop where
  id : m.id = n.id
  sort : m.isDecision = n.isDecision
  calls : CallsBy Owned.Alike n m
  data : n.isDecision → m.data = n.data

theorem Node.Alike.refl (n : Node) : n.Alike n where
  id := rfl
  sort := rfl
  calls os owned := ⟨os, owned, List.forall₂_same.2 fun _ _ => ⟨rfl, rfl⟩⟩
  data _ := rfl

/-- Decision nodes have no decisions of their own. -/
theorem Node.alike_of_isDecision {n m : Node} (decision : n.isDecision) (id : m.id = n.id)
    (sort : m.isDecision = n.isDecision) (data : m.data = n.data) : n.Alike m where
  id := id
  sort := sort
  calls := .of_functions sort fun regular => absurd (decision.symm.trans regular) (by decide)
  data _ := data

theorem decisionIds_of_alike (alike : List.Forall₂ Node.Alike ns ns') :
    decisionIds ns' = decisionIds ns := by
  induction alike with
  | nil => rfl
  | cons here _ ih => rw [decisionIds_cons, decisionIds_cons, here.sort, here.id, ih]

/-- Canvases that are alike are calm together. -/
theorem Calm.of_alike (calm : Calm calls ns) (alike : List.Forall₂ Node.Alike ns ns') :
    ∃ calls', Calm calls' ns' := by
  obtain ⟨calls', calling, related⟩ :=
    callsOf_of_forall₂ (alike.imp fun _ _ h => h.calls) calm.calling
  have called : callIds calls' = callIds calls := by
    rw [callIds, callIds, map_of_forall₂ related fun _ _ h => h.id.symm]
  have ids := decisionIds_of_alike alike
  refine ⟨calls', calling, ids ▸ calm.nodup, fun id => ?_, fun m member decision => ?_⟩
  · rw [ids, called, calm.ids]
  · obtain ⟨n, there, here⟩ := exists_of_mem_right alike member
    rw [here.sort] at decision
    obtain ⟨o, s, last, summary, current⟩ := calm.shows n there decision
    obtain ⟨o', last', same⟩ :=
      exists_lastCall? related last m.id fun o o' h => by rw [h.id, here.id]
    refine ⟨o', s, last', same.summary.trans summary, ?_⟩
    simpa only [isStale, here.data decision] using current

end Dialogue.Graph
