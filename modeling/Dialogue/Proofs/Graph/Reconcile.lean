import Dialogue.Proofs.Document.Same
import Dialogue.Proofs.Graph.Decisions

/-!
# Reconciling node by node

Which nodes reconciling keeps, which it drops, which it refreshes and which it makes, each list in
its order. What it gives is settled: reconciling that again changes nothing.
-/

namespace Dialogue.Graph

/-! ## The decisions that call for a node -/

/-- The decisions of the regular nodes, in the order of their functions. Some may share an id. -/
def callsOf (nodes : List Node) : Loose (List Owned) := return (← nodes.mapM ownedBy).flatten

/-- The ids that are called for, in the order in which they first come. -/
def callIds (calls : List Owned) : List String := (calls.map (·.id)).eraseDups

/-- The decision that the decision node of an id stands for: the last one of that id. -/
def lastCall? (calls : List Owned) (id : String) : Option Owned :=
  calls.reverse.find? (·.id = id)

/-- What is expected is put together from all calls, in order. -/
theorem expected_eq_ok {nodes : List Node} {os : List Owned} :
    expected nodes = .ok os ↔ ∃ calls, callsOf nodes = .ok calls ∧ calls.foldl putOwned [] = os := by
  simp only [expected, callsOf]
  cases nodes.mapM ownedBy <;> simp

theorem callsOf_cons (n : Node) (ns : List Node) :
    callsOf (n :: ns) = (do
      let os ← ownedBy n
      let calls ← callsOf ns
      return os ++ calls) := by
  simp only [callsOf, List.mapM_cons]
  cases ownedBy n <;> cases ns.mapM ownedBy <;> simp

/-- Decision nodes call for nothing. -/
theorem callsOf_regular (nodes : List Node) : callsOf (regular nodes) = callsOf nodes := by
  induction nodes with
  | nil => rfl
  | cons n ns ih =>
    rw [regular_cons, callsOf_cons]
    cases decision : n.isDecision with
    | true =>
      have none : ownedBy n = .ok [] := by simp [ownedBy, decision]
      rw [if_pos rfl, none, ok_bind, ih]
      cases callsOf ns <;> rfl
    | false => rw [if_neg (by decide), callsOf_cons, ih]

/-- The calls are the decisions that regular nodes own. -/
theorem mem_callsOf {nodes : List Node} {calls : List Owned} (h : callsOf nodes = .ok calls)
    {o : Owned} : o ∈ calls ↔ o.Among nodes := by
  obtain ⟨each, run, rest⟩ := bind_eq_ok.1 h
  obtain rfl := Except.ok.inj rest
  rw [mapM_eq_ok] at run
  rw [List.mem_flatten]
  constructor
  · rintro ⟨os, there, member⟩
    obtain ⟨n, found, here⟩ := exists_of_mem_right run there
    obtain ⟨rfl, among⟩ := (mem_ownedBy here).1 member
    exact { among with owner := found }
  · intro among
    obtain ⟨os, there, here⟩ := exists_of_mem_left run among.owner
    exact ⟨os, there, (mem_ownedBy here).2 ⟨rfl, { among with owner := .head _ }⟩⟩

theorem mem_callIds {calls : List Owned} {id : String} :
    id ∈ callIds calls ↔ ∃ o ∈ calls, o.id = id := by
  simp [callIds]

/-- The last decision put under an id is the one found. -/
theorem find?_putOwned (os : List Owned) (o : Owned) (id : String) :
    (putOwned os o).find? (·.id = id) = if o.id = id then some o else os.find? (·.id = id) := by
  induction os with
  | nil => simp [putOwned, List.find?_cons]; split <;> simp_all
  | cons p os ih =>
    simp only [putOwned]
    split
    · rename_i same
      by_cases here : o.id = id <;> simp [same, here]
    · rename_i other
      by_cases here : p.id = id
      · have ne : o.id ≠ id := fun h => other (here.trans h.symm)
        simp [here, ne]
      · simp [here, ih]

/-- One decision is kept for each id that is called for, in the order in which these come. -/
theorem ids_foldl_putOwned (calls : List Owned) :
    (calls.foldl putOwned []).map (·.id) = callIds calls := by
  induction calls using List.reverseRecOn with
  | nil => rfl
  | append_singleton calls o ih =>
    rw [List.foldl_append, List.foldl_cons, List.foldl_nil, ids_putOwned, ih]
    simp only [callIds, List.map_append, List.map_cons, List.map_nil, List.eraseDups_append]
    by_cases there : o.id ∈ calls.map (·.id) <;> simp_all [List.removeAll, List.eraseDups_cons]

/-- Of several decisions with one id, the last is kept. -/
theorem find?_foldl_putOwned (calls : List Owned) (id : String) :
    (calls.foldl putOwned []).find? (·.id = id) = lastCall? calls id := by
  induction calls using List.reverseRecOn with
  | nil => rfl
  | append_singleton calls o ih =>
    rw [List.foldl_append, List.foldl_cons, List.foldl_nil, find?_putOwned, ih]
    by_cases here : o.id = id <;> simp [lastCall?, here]

/-- There is no last call of an id that none has. -/
theorem lastCall?_eq_none {calls : List Owned} {id : String} :
    lastCall? calls id = none ↔ id ∉ callIds calls := by
  simp [lastCall?, mem_callIds]

theorem lastCall?_eq_some {calls : List Owned} {id : String} {o : Owned}
    (h : lastCall? calls id = some o) : o ∈ calls ∧ o.id = id :=
  ⟨List.mem_reverse.1 (List.mem_of_find?_eq_some h), by simpa using List.find?_some h⟩

/-! ## What becomes of the nodes there are -/

/-- Each node with the nodes before it; those in `before` come before them all. -/
def withBefore (before : List Node) : List Node → List (List Node × Node)
  | [] => []
  | n :: ns => (before, n) :: withBefore (before ++ [n]) ns

/-- A node stays if it is a regular one, or the first decision node of an id that is called for. -/
def stays (calls : List Owned) (p : List Node × Node) : Bool :=
  !p.2.isDecision || ((callIds calls).contains p.2.id && !(decisionIds p.1).contains p.2.id)

def staying (calls : List Owned) (before nodes : List Node) : List Node :=
  ((withBefore before nodes).filter (stays calls)).map (·.2)

/-- Decision nodes that nothing calls for, and repeated ones. -/
def leaving (calls : List Owned) (before nodes : List Node) : List Node :=
  ((withBefore before nodes).filter fun p => !stays calls p).map (·.2)

/-- The summary that the decision node of an id has to show. -/
def summaryOf? (calls : List Owned) (id : String) : Option Entries :=
  (lastCall? calls id).bind (·.summary.toOption)

/-- Whether a decision node shows something else. -/
def isOutdated (calls : List Owned) (n : Node) : Bool :=
  n.isDecision && (summaryOf? calls n.id).any (isStale n)

/-- The node with its summary renewed if that is outdated. -/
def refreshed (calls : List Owned) (n : Node) : Node :=
  if isOutdated calls n then { n with data := (summaryOf? calls n.id).getD n.data } else n

/-- The nodes that stay, refreshed, and the ids of those that are refreshed and of those that go. -/
def outcome (calls : List Owned) (before nodes : List Node) : Reconciled where
  nodes := (staying calls before nodes).map (refreshed calls)
  updated := ((staying calls before nodes).filter (isOutdated calls)).map (·.id)
  removed := (leaving calls before nodes).map (·.id)

section

variable {calls : List Owned} {before : List Node} {n : Node} {ns : List Node}

theorem stays_of_regular (regular : n.isDecision = false) : stays calls (before, n) := by
  simp [stays, regular]

/-- A decision node stays if its id is called and was not met before. -/
theorem stays_iff (decision : n.isDecision) :
    stays calls (before, n) ↔ n.id ∈ callIds calls ∧ n.id ∉ decisionIds before := by
  simp [stays, decision]

theorem isOutdated_of_regular (regular : n.isDecision = false) : isOutdated calls n = false := by
  simp [isOutdated, regular]

/-- It is outdated when it does not show the summary of its last call. -/
theorem isOutdated_of_summary {s : Entries} (decision : n.isDecision)
    (summary : summaryOf? calls n.id = some s) : isOutdated calls n = isStale n s := by
  simp [isOutdated, decision, summary]

theorem refreshed_of_current (current : isOutdated calls n = false) : refreshed calls n = n := by
  simp [refreshed, current]

/-- Then it gets the summary. -/
theorem refreshed_of_outdated {s : Entries} (outdated : isOutdated calls n)
    (summary : summaryOf? calls n.id = some s) : refreshed calls n = { n with data := s } := by
  simp [refreshed, outdated, summary]

/-- A refreshed node is where it was and as selected as it was. -/
theorem refreshed_eq (calls : List Owned) (n : Node) :
    refreshed calls n = { n with data := (refreshed calls n).data } := by
  unfold refreshed
  split <;> rfl

@[simp] theorem id_refreshed : (refreshed calls n).id = n.id := by rw [refreshed_eq]

@[simp] theorem isDecision_refreshed : (refreshed calls n).isDecision = n.isDecision := by
  rw [refreshed_eq]
  rfl

theorem staying_cons : staying calls before (n :: ns) =
    if stays calls (before, n) then n :: staying calls (before ++ [n]) ns
    else staying calls (before ++ [n]) ns := by
  simp only [staying, withBefore, List.filter_cons]
  split <;> rfl

theorem leaving_cons : leaving calls before (n :: ns) =
    if stays calls (before, n) then leaving calls (before ++ [n]) ns
    else n :: leaving calls (before ++ [n]) ns := by
  cases h : stays calls (before, n) <;> simp [leaving, withBefore, h]

/-- A node that stays is updated if it is outdated, and kept if not. -/
theorem outcome_of_stays (h : stays calls (before, n)) :
    outcome calls before (n :: ns) =
      if isOutdated calls n then (outcome calls (before ++ [n]) ns).update (refreshed calls n)
      else (outcome calls (before ++ [n]) ns).keep n := by
  cases outdated : isOutdated calls n with
  | true => simp [outcome, staying_cons, leaving_cons, h, outdated, Reconciled.update]
  | false =>
    simp [outcome, staying_cons, leaving_cons, h, outdated, Reconciled.keep,
      refreshed_of_current outdated]

/-- A node that leaves is removed. -/
theorem outcome_of_leaves (h : stays calls (before, n) = false) :
    outcome calls before (n :: ns) = (outcome calls (before ++ [n]) ns).remove n := by
  simp [outcome, staying_cons, leaving_cons, h, Reconciled.remove]

end

/-- The ids in `present` are those of the decision nodes that came before and stayed. -/
def Met (calls : List Owned) (present : List String) (before : List Node) : Prop :=
  ∀ id ∈ callIds calls, id ∈ present ↔ id ∈ decisionIds before

section

variable {calls : List Owned} {present : List String} {before : List Node} {n : Node}

/-- Regular nodes do not count as met. -/
theorem Met.append_regular (met : Met calls present before) (regular : n.isDecision = false) :
    Met calls present (before ++ [n]) := by
  simpa [Met, decisionIds_append, decisionIds_cons, regular, decisionIds] using met

/-- A decision node that does not stay is one that is met already, or not called for. -/
theorem Met.append_leaving (met : Met calls present before) (decision : n.isDecision)
    (unwanted : n.id ∈ present ∨ n.id ∉ callIds calls) : Met calls present (before ++ [n]) := by
  intro id wanted
  rw [decisionIds_append, List.mem_append, met id wanted, decisionIds_cons, if_pos decision,
    List.mem_cons]
  constructor
  · exact .inl
  · rintro (there | rfl | none)
    · exact there
    · exact (met _ wanted).1 (unwanted.resolve_right (absurd wanted))
    · cases none

theorem Met.append_staying (met : Met calls present before) (decision : n.isDecision) :
    Met calls (n.id :: present) (before ++ [n]) := by
  intro id wanted
  rw [decisionIds_append, List.mem_append, List.mem_cons, met id wanted, decisionIds_cons,
    if_pos decision, List.mem_cons, or_comm]
  simp [decisionIds]

/-- What was met decides whether a decision node stays. -/
theorem Met.stays_iff (met : Met calls present before) (decision : n.isDecision) :
    stays calls (before, n) ↔ n.id ∈ callIds calls ∧ n.id ∉ present := by
  rw [Graph.stays_iff decision]
  exact and_congr_right fun wanted => not_congr (met _ wanted).symm

end

/-- What is made of the nodes is their outcome, and every summary it needs can be made. -/
structure KeptAs (calls : List Owned) (before nodes : List Node) (r : Reconciled) : Prop where
  eq_outcome : r = outcome calls before nodes
  summaries : ∀ n ∈ staying calls before nodes, n.isDecision →
    ∃ s, summaryOf? calls n.id = some s

namespace KeptAs

variable {calls : List Owned} {before ns : List Node} {n : Node} {r : Reconciled}

/-- The scan keeps a regular node as it should. -/
theorem keep_regular (kept : KeptAs calls (before ++ [n]) ns r) (regular : n.isDecision = false) :
    KeptAs calls before (n :: ns) (r.keep n) := by
  obtain ⟨rfl, summaries⟩ := kept
  have stay : stays calls (before, n) := stays_of_regular regular
  refine ⟨?_, fun m member decision => ?_⟩
  · rw [outcome_of_stays stay, isOutdated_of_regular regular]
    rfl
  · rw [staying_cons, if_pos stay] at member
    rcases List.mem_cons.1 member with rfl | member
    · exact absurd (regular.symm.trans decision) (by decide)
    · exact summaries m member decision

/-- It removes a node that leaves. -/
theorem remove (kept : KeptAs calls (before ++ [n]) ns r)
    (leaves : stays calls (before, n) = false) : KeptAs calls before (n :: ns) (r.remove n) := by
  obtain ⟨rfl, summaries⟩ := kept
  refine ⟨(outcome_of_leaves leaves).symm, ?_⟩
  rw [staying_cons, leaves]
  exact summaries

/-- It refreshes one that stays. -/
theorem refresh (kept : KeptAs calls (before ++ [n]) ns r) (stay : stays calls (before, n))
    (decision : n.isDecision) {s : Entries} (summary : summaryOf? calls n.id = some s) :
    KeptAs calls before (n :: ns)
      (if isStale n s then r.update { n with data := s } else r.keep n) := by
  obtain ⟨rfl, summaries⟩ := kept
  have same := isOutdated_of_summary decision summary
  refine ⟨?_, fun m member decision => ?_⟩
  · rw [outcome_of_stays stay, same]
    split
    case isTrue stale => rw [refreshed_of_outdated (by rwa [same]) summary]
    case isFalse => rfl
  · rw [staying_cons, if_pos stay] at member
    rcases List.mem_cons.1 member with rfl | member
    · exact ⟨s, summary⟩
    · exact summaries m member decision

end KeptAs

/-- So it does for all nodes, whatever was met before. -/
theorem keptAs_of_keepExpected {calls : List Owned} {present : List String}
    {before nodes : List Node} {r : Reconciled} (met : Met calls present before)
    (h : keepExpected (calls.foldl putOwned []) present nodes = .ok r) :
    KeptAs calls before nodes r := by
  -- The decision nodes before those in hand tell which of these are the first of their ids.
  induction nodes generalizing present before r with
  | nil =>
    obtain rfl := Except.ok.inj h
    exact ⟨rfl, nofun⟩
  | cons n ns ih =>
    cases keepStep_of_keepExpected h with
    | regular run regular => exact (ih (met.append_regular regular) run).keep_regular regular
    | removed run decision unwanted =>
      rw [find?_foldl_putOwned, lastCall?_eq_none] at unwanted
      refine (ih (met.append_leaving decision unwanted) run).remove ?_
      rw [Bool.eq_false_iff, Ne, met.stays_iff decision]
      exact fun ⟨wanted, first⟩ => unwanted.elim first (absurd wanted)
    | kept run decision first last made =>
      rw [find?_foldl_putOwned] at last
      have wanted : n.id ∈ callIds calls := by
        by_contra unknown
        rw [lastCall?_eq_none.2 unknown] at last
        cases last
      have stay := (met.stays_iff decision).2 ⟨wanted, first⟩
      exact (ih (met.append_staying decision) run).refresh stay decision
        (by simp [summaryOf?, last, made, Except.toOption])

/-! ### The first of their ids -/

/-- Each node is taken with those before it. -/
theorem mem_withBefore {before nodes : List Node} {p : List Node × Node}
    (member : p ∈ withBefore before nodes) :
    ∃ between after, p.1 = before ++ between ∧ nodes = between ++ p.2 :: after := by
  induction nodes generalizing before with
  | nil => cases member
  | cons n ns ih =>
    rcases List.mem_cons.1 member with rfl | member
    · exact ⟨[], ns, by simp, rfl⟩
    · obtain ⟨between, after, first, rfl⟩ := ih member
      exact ⟨n :: between, after, by simp [first], rfl⟩

/-- The nodes that stay keep their order. -/
theorem staying_sublist (calls : List Owned) (before nodes : List Node) :
    (staying calls before nodes).Sublist nodes := by
  induction nodes generalizing before with
  | nil => exact .refl _
  | cons n ns ih =>
    rw [staying_cons]
    split
    · exact (ih _).cons_cons n
    · exact (ih _).cons n

/-- A decision node that stays is the first of its id. -/
theorem find?_of_mem_staying {calls : List Owned} {nodes : List Node} {n : Node}
    (member : n ∈ staying calls [] nodes) (decision : n.isDecision) :
    nodes.find? (fun m => m.isDecision && m.id = n.id) = some n := by
  obtain ⟨⟨before, m⟩, kept, rfl⟩ := List.mem_map.1 member
  obtain ⟨there, stay⟩ := List.mem_filter.1 kept
  obtain ⟨between, after, first, rfl⟩ := mem_withBefore there
  obtain ⟨-, fresh⟩ := (stays_iff decision).1 stay
  obtain rfl : before = between := first
  have none : before.find? (fun k => k.isDecision && k.id = m.id) = none := by
    rw [List.find?_eq_none]
    rintro k earlier same
    obtain ⟨kind, id⟩ : k.isDecision ∧ k.id = m.id := by simpa using same
    exact fresh (mem_decisionIds.2 ⟨k, earlier, kind, id⟩)
  simp [List.find?_append, none, decision]

/-! ## Settled summaries -/

/-- Data without undefined values hold no function or decision with such values. -/
theorem Owned.Among.defined {nodes : List Node} {o : Owned} (among : o.Among nodes)
    (defined : ∀ n ∈ nodes, (Document.map n.data).Defined) :
    Document.DefinedEntries o.function ∧ Document.DefinedEntries o.decision := by
  obtain ⟨fs, functions, member⟩ := among.function
  obtain ⟨ds, elements, rest⟩ := bind_eq_ok.1 functions
  obtain rfl := Except.ok.inj rest
  have there : .map o.function ∈ ds := mem_mapsOf.1 member
  have items : (Document.list ds).Defined := by
    rw [← eq_list_of_elementsOrNone elements there]
    exact Document.defined_get (defined _ among.owner).2 "functions"
  have function : (Document.map o.function).Defined := Document.defined_of_mem_items items there
  have decision : (Document.map o.decision).Defined := by
    rw [← among.decision]
    exact Document.defined_get function.2 "decision"
  exact ⟨function.2, decision.2⟩

/-- A summary of defined data is defined. -/
theorem defined_of_mem_summary {nodes : List Node} {o : Owned} {s : Entries}
    (among : o.Among nodes) (defined : ∀ n ∈ nodes, (Document.map n.data).Defined)
    (h : o.summary = .ok s) : ∀ e ∈ s, e.2.Defined := by
  obtain ⟨function, decision⟩ := among.defined defined
  obtain ⟨conditions, -, h⟩ := bind_eq_ok.1 h
  obtain rfl := Except.ok.inj h
  have name : o.name.Defined := Document.defined_get function "name"
  have action : ((o.decision.get? "action").getD (.text "")).Defined := by
    cases found : o.decision.get? "action" with
    | none => trivial
    | some d => exact Document.defined_of_get? decision found
  simp only [List.forall_mem_cons]
  exact ⟨name, action, trivial, trivial, name, nofun⟩

/-- A node that has just got its summary shows it. -/
theorem isStale_renewed {nodes : List Node} {o : Owned} {s : Entries} (n : Node)
    (among : o.Among nodes) (defined : ∀ n ∈ nodes, (Document.map n.data).Defined)
    (h : o.summary = .ok s) : isStale { n with data := s } s = false := by
  refine List.any_eq_false.2 ?_
  rintro ⟨k, d⟩ member
  cases k with
  | text key =>
    have same : s.get key = d := get_of_mem_summary h member
    have alike : d.alike d :=
      Document.alike_of_same (Document.same_refl d) (defined_of_mem_summary among defined h _ member)
    simp [same, alike]
  | _ => simp

/-! ## The whole outcome -/

/-- The new decision node of a decision. -/
structure Owned.MadeAs (o : Owned) (settings : Settings) (n : Node) : Prop where
  id : n.id = o.id
  kind : n.kind = Node.decisionKind
  position : o.position settings = .ok n.position
  data : o.summary = .ok n.data
  selected : n.selected = false

/-- A node that is built is made of its decision. -/
theorem Owned.madeAs_of_node {o : Owned} {settings : Settings} {n : Node}
    (h : o.node settings = .ok n) : o.MadeAs settings n := by
  obtain ⟨position, place, h⟩ := bind_eq_ok.1 h
  obtain ⟨data, summary, h⟩ := bind_eq_ok.1 h
  obtain rfl := Except.ok.inj h
  exact ⟨rfl, rfl, place, summary, rfl⟩

/-- A decision node shows what the last decision of its id has to show. -/
def Node.ShowsLast (calls : List Owned) (n : Node) : Prop :=
  ∃ o s, lastCall? calls n.id = some o ∧ o.summary = .ok s ∧ isStale n s = false

/-- All that holds of the outcome of reconciling nodes with the decisions that call for a node. -/
structure Reconciled.Exact (settings : Settings) (calls : List Owned) (nodes : List Node)
    (r : Reconciled) : Prop where
  regular : Graph.regular r.nodes = Graph.regular nodes
  nodup : (decisionIds r.nodes).Nodup
  ids : ∀ id, id ∈ decisionIds r.nodes ↔ id ∈ callIds calls
  /-- The nodes that stay come first, perhaps with another summary, then the new ones. -/
  parts : ∃ made, r.nodes = (staying calls [] nodes).map (refreshed calls) ++ made ∧
    List.Forall₂ (fun id n => ∃ o, lastCall? calls id = some o ∧ o.MadeAs settings n) r.created made
  order : (staying calls [] nodes).Sublist nodes
  first : ∀ n ∈ staying calls [] nodes, n.isDecision →
    nodes.find? (fun m => m.isDecision && m.id = n.id) = some n
  shows : ∀ n ∈ r.nodes, n.isDecision → n.ShowsLast calls
  created : r.created = (callIds calls).filter fun id => id ∉ decisionIds nodes
  updated : r.updated = ((staying calls [] nodes).filter (isOutdated calls)).map (·.id)
  removed : r.removed = (leaving calls [] nodes).map (·.id)

/-- The decisions that have no decision node yet. -/
def missing (calls : List Owned) (nodes : List Node) : List Owned :=
  (calls.foldl putOwned []).filter fun o => !isPresent nodes o

/-- Missing are the ids that are called and not drawn. -/
theorem missing_ids {calls : List Owned} {nodes : List Node} :
    (missing calls nodes).map (·.id) =
      (callIds calls).filter fun id => id ∉ decisionIds nodes := by
  rw [missing, ← ids_foldl_putOwned, List.filter_map]
  refine congrArg (List.map _) (List.filter_congr fun o _ => ?_)
  simp [← isPresent_iff]

/-- A missing node is made for the last decision of its id. -/
theorem lastCall?_of_mem {calls : List Owned} {o : Owned} (member : o ∈ calls.foldl putOwned []) :
    lastCall? calls o.id = some o := by
  have distinct := (foldl_putOwned [] calls .nil).1
  rw [← find?_foldl_putOwned]
  refine find?_of_unique member (by simp) fun p there same => ?_
  exact List.inj_on_of_nodup_map distinct there member (by simpa using same)

theorem summaryOf?_eq_some {calls : List Owned} {id : String} {s : Entries}
    (h : summaryOf? calls id = some s) :
    ∃ o, lastCall? calls id = some o ∧ o.summary = .ok s := by
  obtain ⟨o, last, made⟩ := Option.bind_eq_some_iff.1 h
  refine ⟨o, last, ?_⟩
  cases h : o.summary <;> simp_all [Except.toOption]

/-- A node that is not outdated shows the last call of its id. -/
theorem showsLast_of_current {calls : List Owned} {n : Node} {s : Entries} (decision : n.isDecision)
    (summary : summaryOf? calls n.id = some s) (current : isOutdated calls n = false) :
    n.ShowsLast calls := by
  obtain ⟨o, last, made⟩ := summaryOf?_eq_some summary
  rw [isOutdated_of_summary decision summary] at current
  exact ⟨o, s, last, made, current⟩

/-- So does every node that was refreshed, if the data are defined. -/
theorem showsLast_refreshed {calls : List Owned} {nodes : List Node}
    (calling : callsOf nodes = .ok calls) (defined : ∀ n ∈ nodes, (Document.map n.data).Defined)
    {n : Node} (decision : n.isDecision) {s : Entries} (summary : summaryOf? calls n.id = some s) :
    (refreshed calls n).ShowsLast calls := by
  cases outdated : isOutdated calls n with
  | false =>
    rw [refreshed_of_current outdated]
    exact showsLast_of_current decision summary outdated
  | true =>
    obtain ⟨o, last, made⟩ := summaryOf?_eq_some summary
    rw [refreshed_of_outdated outdated summary]
    have among := (mem_callsOf calling).1 (lastCall?_eq_some last).1
    exact ⟨o, s, last, made, isStale_renewed n among defined made⟩

/-- The parts of which reconciling makes its result. -/
theorem parts_of_reconcile {settings : Settings} {nodes : List Node} {r : Reconciled}
    (h : reconcile settings nodes = .ok r) :
    ∃ calls built, callsOf nodes = .ok calls ∧
      (∀ n ∈ staying calls [] nodes, n.isDecision → ∃ s, summaryOf? calls n.id = some s) ∧
      List.Forall₂ (fun o n => o.node settings = .ok n) (missing calls nodes) built ∧
      r = { outcome calls [] nodes with
        nodes := (outcome calls [] nodes).nodes ++ built
        created := (missing calls nodes).map (·.id) } := by
  obtain ⟨os, expects, h⟩ := bind_eq_ok.1 h
  obtain ⟨calls, calling, rfl⟩ := expected_eq_ok.1 expects
  obtain ⟨kept, keeps, h⟩ := bind_eq_ok.1 h
  obtain ⟨built, builds, h⟩ := bind_eq_ok.1 h
  have met : Met calls [] [] := fun _ _ => by simp [decisionIds]
  obtain ⟨rfl, summaries⟩ := keptAs_of_keepExpected met keeps
  exact ⟨calls, built, calling, summaries, mapM_eq_ok.1 builds, (Except.ok.inj h).symm⟩

/-- Reconciling does exactly what the calls ask for. -/
theorem exact_of_reconcile {settings : Settings} {nodes : List Node} {r : Reconciled}
    (h : reconcile settings nodes = .ok r) (defined : ∀ n ∈ nodes, (Document.map n.data).Defined) :
    ∃ calls, callsOf nodes = .ok calls ∧ r.Exact settings calls nodes := by
  have spec := reconciles_of_reconcile h
  obtain ⟨calls, built, calling, summaries, builds, rfl⟩ := parts_of_reconcile h
  have last : ∀ o ∈ missing calls nodes, lastCall? calls o.id = some o :=
    fun o member => lastCall?_of_mem (List.mem_filter.1 member).1
  have made : List.Forall₂ (fun id n => ∃ o, lastCall? calls id = some o ∧ o.MadeAs settings n)
      ((missing calls nodes).map (·.id)) built :=
    List.forall₂_map_left_iff.2 (((List.forall₂_and_left _ _).2 ⟨last, builds⟩).imp
      fun o n h => ⟨o, h.1, Owned.madeAs_of_node h.2⟩)
  refine ⟨calls, calling, spec.regular, spec.nodup, fun id => ?_, ⟨built, rfl, made⟩,
    staying_sublist calls [] nodes, fun n => find?_of_mem_staying, fun n member decision => ?_,
    missing_ids, rfl, rfl⟩
  · rw [spec.ids, mem_callIds]
    simp only [mem_callsOf calling]
  · rcases List.mem_append.1 member with stayed | new
    · obtain ⟨m, there, rfl⟩ := List.mem_map.1 stayed
      rw [isDecision_refreshed] at decision
      obtain ⟨s, summary⟩ := summaries m there decision
      exact showsLast_refreshed calling defined decision summary
    · obtain ⟨id, -, o, last, here⟩ := exists_of_mem_right made new
      have among := (mem_callsOf calling).1 (lastCall?_eq_some last).1
      have same : lastCall? calls n.id = some o := by
        rw [here.id, (lastCall?_eq_some last).2, last]
      exact ⟨o, n.data, same, here.data, isStale_renewed n among defined here.data⟩

/-! ## A second time -/

/-- Distinct decision nodes that show what they have to stay, unless nothing calls for them. -/
theorem keepExpected_of_shown {calls : List Owned} {present : List String} {nodes : List Node}
    (nodup : (decisionIds nodes).Nodup) (fresh : ∀ id ∈ decisionIds nodes, id ∉ present)
    (shows : ∀ n ∈ nodes, n.isDecision → n.id ∈ callIds calls → n.ShowsLast calls) :
    keepExpected (calls.foldl putOwned []) present nodes = .ok {
      nodes := nodes.filter fun n => !n.isDecision || (callIds calls).contains n.id
      removed := (decisionIds nodes).filter fun id => id ∉ callIds calls } := by
  induction nodes generalizing present with
  | nil => rfl
  | cons n ns ih =>
    have shown := shows n (.head _)
    have rest {present : List String} (distinct : (decisionIds ns).Nodup)
        (fresh : ∀ id ∈ decisionIds ns, id ∉ present) := ih distinct fresh
      fun m member => shows m (.tail _ member)
    cases decision : n.isDecision with
    | false =>
      rw [decisionIds_cons, decision] at nodup fresh ⊢
      simp [keepExpected, decision, rest nodup fresh, Reconciled.keep]
    | true =>
      rw [decisionIds_cons, if_pos decision] at nodup fresh ⊢
      obtain ⟨apart, distinct⟩ := List.nodup_cons.1 nodup
      obtain ⟨first, others⟩ := List.forall_mem_cons.1 fresh
      by_cases called : n.id ∈ callIds calls
      · obtain ⟨o, s, last, summary, current⟩ := shown decision called
        have unmet : ∀ id ∈ decisionIds ns, id ∉ n.id :: present := by
          intro id there
          rw [List.mem_cons, not_or]
          exact ⟨fun same => apart (same ▸ there), others id there⟩
        simp [keepExpected, decision, find?_foldl_putOwned, last, first, summary, current, called,
          rest distinct unmet, Reconciled.keep]
      · have none := lastCall?_eq_none.2 called
        simp [keepExpected, decision, find?_foldl_putOwned, none, called, rest distinct others,
          Reconciled.remove]

/-- Among distinct decision nodes that show what they have to, only those that nothing calls for go,
and only missing ones are made. -/
theorem reconcile_of_shown {calls : List Owned} {nodes : List Node}
    (calling : callsOf nodes = .ok calls) (nodup : (decisionIds nodes).Nodup)
    (shows : ∀ n ∈ nodes, n.isDecision → n.id ∈ callIds calls → n.ShowsLast calls)
    {settings : Settings} {built : List Node}
    (builds : (missing calls nodes).mapM (·.node settings) = .ok built) :
    reconcile settings nodes = .ok {
      nodes := (nodes.filter fun n => !n.isDecision || (callIds calls).contains n.id) ++ built
      created := (callIds calls).filter fun id => id ∉ decisionIds nodes
      removed := (decisionIds nodes).filter fun id => id ∉ callIds calls } := by
  have expects := expected_eq_ok.2 ⟨calls, calling, rfl⟩
  have keeps := keepExpected_of_shown nodup (fun _ _ => List.not_mem_nil) shows
  rw [missing] at builds
  rw [← missing_ids]
  simp [reconcile, expects, keeps, builds, missing]

/-- Where every decision has one node, which shows it, and no other has, there is nothing to do. -/
theorem reconcile_of_settled {calls : List Owned} {nodes : List Node}
    (calling : callsOf nodes = .ok calls) (nodup : (decisionIds nodes).Nodup)
    (ids : ∀ id, id ∈ decisionIds nodes ↔ id ∈ callIds calls)
    (shows : ∀ n ∈ nodes, n.isDecision → n.ShowsLast calls) (settings : Settings) :
    reconcile settings nodes = .ok { nodes } := by
  have created : (callIds calls).filter (fun id => id ∉ decisionIds nodes) = [] := by
    simpa [List.filter_eq_nil_iff] using fun id => (ids id).2
  have removed : (decisionIds nodes).filter (fun id => id ∉ callIds calls) = [] := by
    simpa [List.filter_eq_nil_iff] using fun id => (ids id).1
  have none : missing calls nodes = [] := by
    rw [← List.map_eq_nil_iff (f := (·.id)), missing_ids, created]
  have kept : nodes.filter (fun n => !n.isDecision || (callIds calls).contains n.id) = nodes := by
    refine List.filter_eq_self.2 fun n member => ?_
    cases decision : n.isDecision with
    | false => rfl
    | true => simpa using (ids n.id).1 (mem_decisionIds.2 ⟨n, member, decision, rfl⟩)
  have builds : (missing calls nodes).mapM (·.node settings) = .ok [] := by
    rw [none]
    rfl
  have shown : ∀ n ∈ nodes, n.isDecision → n.id ∈ callIds calls → n.ShowsLast calls :=
    fun n member decision _ => shows n member decision
  rw [reconcile_of_shown calling nodup shown builds, kept, created, removed, List.append_nil]

/-- Then there is nothing left to do. -/
theorem Reconciled.Exact.reconcile_nodes {settings : Settings} {calls : List Owned}
    {nodes : List Node} {r : Reconciled} (exact : r.Exact settings calls nodes)
    (calling : callsOf nodes = .ok calls) (settings' : Settings) :
    reconcile settings' r.nodes = .ok { nodes := r.nodes } := by
  have calling : callsOf r.nodes = .ok calls := by
    rw [← callsOf_regular, exact.regular, callsOf_regular, calling]
  exact reconcile_of_settled calling exact.nodup exact.ids exact.shows settings'

/-- Reconciling keeps, drops, refreshes and makes exactly the nodes it should, and tells which; a
second time it changes nothing. -/
theorem reconcile_exact {settings : Settings} {nodes : List Node} {r : Reconciled}
    (h : reconcile settings nodes = .ok r) (defined : ∀ n ∈ nodes, (Document.map n.data).Defined) :
    ∃ calls, callsOf nodes = .ok calls ∧ (∀ o, o ∈ calls ↔ o.Among nodes) ∧
      r.Exact settings calls nodes ∧
      ∀ settings', reconcile settings' r.nodes = .ok { nodes := r.nodes } := by
  obtain ⟨calls, calling, exact⟩ := exact_of_reconcile h defined
  exact ⟨calls, calling, fun _ => mem_callsOf calling, exact, exact.reconcile_nodes calling⟩

/-- A node with two decisions, a decision node of the first with an old summary, the same once more,
and one of a function that is gone. -/
def unsettled : List Node :=
  let decided (name : String) : Document :=
    .object [("name", .text name), ("decision", .object [("action", .text "pass")])]
  let shown (id : String) : Node :=
    { id, kind := Node.decisionKind, position := ⟨1.0, 2.0⟩, data := [], selected := true }
  [{ id := "ask", kind := "node", position := ⟨0.0, 0.0⟩
     data := [(.text "functions", .list [decided "choose", decided "leave"])] },
   shown "decision-ask-choose", shown "decision-ask-choose", shown "decision-ask-old"]

theorem reconcile_unsettled : ∃ r calls, reconcile {} unsettled = .ok r ∧
    r.created = ["decision-ask-leave"] ∧ r.updated = ["decision-ask-choose"] ∧
    r.removed = ["decision-ask-choose", "decision-ask-old"] ∧
    callsOf unsettled = .ok calls ∧ (∀ o, o ∈ calls ↔ o.Among unsettled) ∧
    r.Exact {} calls unsettled ∧
    ∀ settings', reconcile settings' r.nodes = .ok { nodes := r.nodes } := by
  have defined : ∀ n ∈ unsettled, (Document.map n.data).Defined := by
    simp [unsettled, Document.Defined, Document.DefinedEntries, Document.DefinedItems,
      Scalar.Defined, Document.object, Scalar.alike, Scalar.wholeValue?]
  obtain ⟨r, run⟩ : ∃ r, reconcile {} unsettled = .ok r := ⟨_, rfl⟩
  obtain ⟨calls, rest⟩ := reconcile_exact run defined
  obtain rfl := Except.ok.inj run
  exact ⟨_, calls, rfl, rfl, rfl, rfl, rest⟩

end Dialogue.Graph
