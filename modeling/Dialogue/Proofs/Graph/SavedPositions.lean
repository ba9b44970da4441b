import Dialogue.Proofs.Document.Differing
import Dialogue.Proofs.Graph.Calm
import Dialogue.Proofs.Graph.Saving

/-!
# Which positions are saved

Of several decision nodes with one id, saving takes the position of the last, but reconciling keeps
the first. So a graph that has such nodes, as it has when a node is given the id of one that is
gone, may be saved in two ways, before it is reconciled and after.
-/

namespace Dialogue.Graph

variable {nodes nodes' : List Node} {n : Node} {o : Owned}

/-! ## Decision nodes of one id -/

/-- Where the decision nodes of an id stand, in their order. -/
def positionsOf (nodes : List Node) (id : String) : List Position :=
  (nodes.filter fun n => n.isDecision && n.id = id).map (·.position)

/-- A function with a name has a decision of this id. -/
def Called (nodes : List Node) (id : String) : Prop := ∃ o : Owned, o.Among nodes ∧ o.id = id

/-- Saving takes the position of the last node of an id. -/
theorem decisionPosition?_eq (nodes : List Node) (id : String) :
    decisionPosition? nodes id = (positionsOf nodes id).getLast? := by
  rw [decisionPosition?, positionsOf, List.getLast?_map, List.getLast?_eq_head?_reverse,
    ← List.filter_reverse, List.head?_filter]

/-- The first position is that of the first node. -/
theorem head?_positionsOf (nodes : List Node) (id : String) : (positionsOf nodes id).head? =
    (nodes.find? fun n => n.isDecision && n.id = id).map (·.position) := by
  rw [positionsOf, List.head?_map, List.head?_filter]

theorem mem_positionsOf {id : String} {p : Position} :
    p ∈ positionsOf nodes id ↔ ∃ m ∈ nodes, m.isDecision ∧ m.id = id ∧ m.position = p := by
  simp [positionsOf, and_assoc]

/-- There are as many positions as decision nodes of the id. -/
theorem length_positionsOf (nodes : List Node) (id : String) :
    (positionsOf nodes id).length = (decisionIds nodes).count id := by
  rw [positionsOf, List.length_map, decisionIds, List.count_eq_countP, List.countP_map,
    List.countP_filter, List.countP_eq_length_filter]
  refine congrArg (fun p => (nodes.filter p).length) (funext fun n => ?_)
  exact Bool.and_comm _ _

theorem length_positionsOf_le_one (distinct : (decisionIds nodes).Nodup) (id : String) :
    (positionsOf nodes id).length ≤ 1 := by
  rw [length_positionsOf]
  exact List.nodup_iff_count_le_one.1 distinct id

theorem positionsOf_eq_nil {id : String} : positionsOf nodes id = [] ↔ id ∉ decisionIds nodes := by
  rw [← List.length_eq_zero_iff, length_positionsOf, List.count_eq_zero]

/-! ## After reconciling -/

section

variable {settings : Settings} {r : Reconciled} (reconciled : reconcile settings nodes = .ok r)
  (covered : ∀ o : Owned, o.Among nodes → o.id ∈ decisionIds nodes)

include reconciled

/-- Reconciling leaves none of an id that is not called. -/
theorem positionsOf_of_not_called {id : String} (uncalled : ¬Called nodes id) :
    positionsOf r.nodes id = [] :=
  positionsOf_eq_nil.2 fun there => uncalled (((reconciles_of_reconcile reconciled).ids id).1 there)

include covered

/-- Where no decision lacks its node, none is made. -/
theorem nodes_of_covered :
    ∃ calls, r.nodes = (staying calls [] nodes).map (refreshed calls) := by
  obtain ⟨calls, built, calling, -, builds, rfl⟩ := parts_of_reconcile reconciled
  have complete : missing calls nodes = [] := by
    refine List.filter_eq_nil_iff.2 fun o there => ?_
    have among := (mem_callsOf calling).1 (lastCall?_eq_some (lastCall?_of_mem there)).1
    simpa using isPresent_iff.2 (covered o among)
  rw [complete] at builds
  cases builds
  exact ⟨calls, by simp [outcome]⟩

/-- It leaves the first node of an id where it was. -/
theorem head?_of_mem_reconciled {m : Node} (member : m ∈ r.nodes) (decision : m.isDecision) :
    (positionsOf nodes m.id).head? = some m.position := by
  obtain ⟨calls, kept⟩ := nodes_of_covered reconciled covered
  rw [kept] at member
  obtain ⟨x, stays, rfl⟩ := List.mem_map.1 member
  rw [isDecision_refreshed] at decision
  rw [head?_positionsOf, id_refreshed, find?_of_mem_staying stays decision, Option.map_some,
    refreshed_eq]

/-- Reconciling leaves the first decision node of an id that is called for. -/
theorem positionsOf_of_called {id : String} (called : Called nodes id) :
    positionsOf r.nodes id = (positionsOf nodes id).head?.toList := by
  have spec := reconciles_of_reconcile reconciled
  obtain ⟨m, member, decision, rfl⟩ := mem_decisionIds.1 ((spec.ids id).2 called)
  have there : m.position ∈ positionsOf r.nodes m.id :=
    mem_positionsOf.2 ⟨m, member, decision, rfl, rfl⟩
  have one : (positionsOf r.nodes m.id).length = 1 :=
    le_antisymm (length_positionsOf_le_one spec.nodup m.id) (List.length_pos_of_mem there)
  obtain ⟨p, only⟩ := List.length_eq_one_iff.1 one
  rw [only, List.mem_singleton] at there
  rw [only, head?_of_mem_reconciled reconciled covered member decision, there, Option.toList_some]

end

/-! ## Saved decisions -/

/-- A function with a decision, be it with a name or without. -/
structure Owned.Held (nodes : List Node) (o : Owned) : Prop where
  owner : o.owner ∈ regular nodes
  function : .map o.function ∈ o.owner.items
  decision : o.function.get "decision" = .map o.decision

/-- The position that a decision is saved with. -/
def savedPosition (nodes : List Node) (o : Owned) : Document :=
  (decisionPosition? nodes o.id).elim (o.decision.get "decision_node_position") Position.document

/-- The decision is saved with the same position in two graphs. -/
def Owned.SavedSame (nodes nodes' : List Node) (o : Owned) : Prop :=
  (savedPosition nodes o).Same (savedPosition nodes' o)

theorem Node.get_functions_of_mem {d : Document} (member : d ∈ n.items) :
    n.data.get "functions" = .list n.items := by
  unfold Node.items at member ⊢
  split
  case h_1 ds stands => exact stands
  case h_2 other => simp_all

/-- A decision is settled by the position of its node, if there is one. -/
theorem settle_of_decision (held : o.function.get "decision" = .map o.decision) :
    settle nodes o.owner.id o.function = o.function.put "decision"
      (.map ((decisionPosition? nodes o.id).elim o.decision fun p =>
        o.decision.put "decision_node_position" p.document)) := by
  have found := Entries.get?_of_get held (by simp)
  have id : decisionIdOf o.owner.id (o.function.get "name") = o.id := rfl
  rw [settle, id]
  cases decisionPosition? nodes o.id with
  | none => exact (Entries.put_get? found).symm
  | some p => simp only [placed, held, Option.elim_some]

theorem settle_of_no_decision (owner : String) {f : Entries}
    (other : ∀ d, f.get "decision" ≠ .map d) : settle nodes owner f = f := by
  unfold settle placed
  split
  · split
    case h_1 d held => exact absurd held (other d)
    case h_2 => rfl
  · rfl

/-- A function is saved the same in two graphs if its decision is. -/
theorem same_settle_iff (held : o.function.get "decision" = .map o.decision)
    (distinct : (Document.map o.function).Distinct) :
    (Document.map (settle nodes o.owner.id o.function)).Same
        (.map (settle nodes' o.owner.id o.function)) ↔ o.SavedSame nodes nodes' := by
  have decision : (Document.map o.decision).Distinct :=
    Document.Holds.get? distinct (Entries.get?_of_get held (by simp))
  have function : Scalar.Apart (o.function.map Prod.fst) := (Document.holds_map.1 distinct).1
  have decision : Scalar.Apart (o.decision.map Prod.fst) := (Document.holds_map.1 decision).1
  rw [settle_of_decision held, settle_of_decision held, Document.same_put_iff function,
    Owned.SavedSame, savedPosition, savedPosition]
  cases decisionPosition? nodes o.id with
  | none =>
    cases decisionPosition? nodes' o.id with
    | none => exact iff_of_true (Document.same_refl _) (Document.same_refl _)
    | some q => exact Document.same_self_put_iff decision
  | some p =>
    cases decisionPosition? nodes' o.id with
    | none => exact Document.same_put_self_iff decision
    | some q => exact Document.same_put_iff decision

/-- Two settled functions are the same just when their decisions are saved the same. -/
theorem same_settled_iff {e : Document} (distinct : e.Distinct) :
    (settled nodes n.id e).Same (settled nodes' n.id e) ↔
      ∀ f d : Entries, e = .map f → f.get "decision" = .map d →
        Owned.SavedSame nodes nodes' ⟨n, f, d⟩ := by
  by_cases decided : ∃ f d : Entries, e = .map f ∧ f.get "decision" = .map d
  case pos =>
    obtain ⟨f, d, rfl, held⟩ := decided
    have same : (Document.map (settle nodes n.id f)).Same (.map (settle nodes' n.id f)) ↔
        Owned.SavedSame nodes nodes' ⟨n, f, d⟩ := same_settle_iff (o := ⟨n, f, d⟩) held distinct
    refine same.trans ⟨fun here => ?_, fun each => each f d rfl held⟩
    rintro f' d' ⟨⟩ held'
    obtain rfl : d = d' := by simpa using held.symm.trans held'
    exact here
  case neg =>
    have stays (ns : List Node) : settled ns n.id e = e := by
      cases e with
      | map f =>
        exact congrArg _ (settle_of_no_decision _ fun d held => decided ⟨f, d, rfl, held⟩)
      | _ => rfl
    rw [stays, stays]
    exact iff_of_true (Document.same_refl e) fun f d is held => absurd ⟨f, d, is, held⟩ decided

/-- The data of a node are saved the same in two graphs if its decisions are. -/
theorem same_savedData_iff (distinct : (Document.map n.data).Distinct) :
    (Document.map (savedData nodes n)).Same (.map (savedData nodes' n)) ↔
      ∀ f d : Entries, .map f ∈ n.items → f.get "decision" = .map d →
        Owned.SavedSame nodes nodes' ⟨n, f, d⟩ := by
  unfold savedData Node.items
  split
  case h_1 ds listed =>
    have each : ∀ e ∈ ds, e.Distinct := Document.holds_list.1
      (Document.Holds.get? distinct (Entries.get?_of_get listed (by simp)))
    rw [Document.same_put_iff (Document.holds_map.1 distinct).1, Document.same_map_iff]
    constructor
    · exact fun same f d member => (same_settled_iff (each _ member)).1 (same _ member) f d rfl
    · intro same e member
      refine (same_settled_iff (each e member)).2 ?_
      rintro f d rfl
      exact same f d member
  case h_2 => exact iff_of_true (Document.same_refl _) nofun

/-! ## Saved graphs -/

/-- Two saved nodes are the same just when their data are. -/
theorem same_savedNode_iff (role : Role) :
    (savedNode nodes n role).Same (savedNode nodes' n role) ↔
      (Document.map (savedData nodes n)).Same (.map (savedData nodes' n)) :=
  Document.same_entry_iff [(.text "id", .text n.id), (.text "type", .text role.name),
    (.text "position", n.position.document)] [] (by simp)

/-- Two saved flows are the same just when their nodes are. -/
theorem same_savedFlow_iff {base : Option Document} {fields : Entries}
    (head : heading base = .ok fields) {docs docs' edges : List Document} :
    (savedFlow fields docs edges).Same (savedFlow fields docs' edges) ↔
      (Document.list docs).Same (.list docs') := by
  refine Document.same_entry_iff fields [(.text "edges", .list edges)] ?_
  have absent := (Entries.get?_eq_none_iff _ _).1 (get?_heading head)
  simpa [or_imp, forall_and] using absent

/-- Graphs with the same regular nodes are both saved or fail alike. They are saved the same if
every decision is. -/
theorem toFlow_same_iff (same : regular nodes' = regular nodes)
    (distinct : ∀ n ∈ regular nodes, (Document.map n.data).Distinct) (base : Option Document) :
    (∃ e, toFlow base nodes = .error e ∧ toFlow base nodes' = .error e) ∨
      ∃ d d', toFlow base nodes = .ok d ∧ toFlow base nodes' = .ok d' ∧
        (d.Same d' ↔ ∀ o : Owned, o.Held nodes → o.SavedSame nodes nodes') := by
  rw [toFlow_eq, toFlow_eq, same]
  cases run : (regular nodes).mapM roleOf with
  | error e => exact .inl ⟨e, rfl, rfl⟩
  | ok roles =>
    cases head : heading base with
    | error e => exact .inl ⟨e, rfl, rfl⟩
    | ok fields =>
      cases made : storedEdges ((regular nodes).map bareNode) with
      | error e => exact .inl ⟨e, rfl, rfl⟩
      | ok edges =>
        refine .inr ⟨_, _, rfl, rfl, ?_⟩
        have length : roles.length = (regular nodes).length := (mapM_eq_ok.1 run).length_eq.symm
        rw [same_savedFlow_iff head, Document.same_zipWith_iff (f := savedNode nodes)
          (g := savedNode nodes') length fun _ => same_savedNode_iff]
        constructor
        · intro each o held
          exact (same_savedData_iff (distinct _ held.owner)).1 (each _ held.owner) o.function
            o.decision held.function held.decision
        · intro each n member
          exact (same_savedData_iff (distinct n member)).2 fun f d there held =>
            each ⟨n, f, d⟩ ⟨member, there, held⟩

/-! ## Saved before and after reconciling -/

/-- A function with a decision and a name. -/
theorem Owned.Held.among (held : o.Held nodes) (named : o.name.isTrue) : o.Among nodes := by
  obtain ⟨member, regular⟩ := mem_regular.1 held.owner
  have functions : o.owner.functions = .ok (Node.mapsOf o.owner.items) := by
    rw [Node.functions, Node.get_functions_of_mem held.function, Document.elementsOrNone_list]
    rfl
  exact ⟨member, regular, ⟨_, functions, mem_mapsOf.2 held.function⟩, held.decision, named⟩

/-- Reconciling leaves the position that a decision is saved with as it is. Where a function with a
name calls for the decision node, the first of its id has to stand where the last does; elsewhere
the last has to stand where the decision says already. -/
structure Owned.Unmoved (nodes : List Node) (o : Owned) : Prop where
  called : Called nodes o.id → ∀ p ∈ (positionsOf nodes o.id).getLast?,
    ∀ q ∈ (positionsOf nodes o.id).head?, p.document.Same q.document
  uncalled : ¬Called nodes o.id → ∀ p ∈ (positionsOf nodes o.id).getLast?,
    p.document.Same (o.decision.get "decision_node_position")

/-- Where ids differ no decision is moved. -/
theorem Owned.Unmoved.of_nodup (distinct : (decisionIds nodes).Nodup) (called : Called nodes o.id) :
    o.Unmoved nodes := by
  refine ⟨fun _ p last q first => ?_, absurd called⟩
  have few := length_positionsOf_le_one distinct o.id
  cases positions : positionsOf nodes o.id with
  | nil => simp [positions] at last
  | cons x xs =>
    obtain rfl : xs = [] := by simpa [positions] using few
    obtain rfl : x = p := by simpa [positions] using last
    obtain rfl : x = q := by simpa [positions] using first
    exact Document.same_refl _

section

variable {settings : Settings} {r : Reconciled} (reconciled : reconcile settings nodes = .ok r)
  (covered : ∀ o : Owned, o.Among nodes → o.id ∈ decisionIds nodes)

include reconciled covered

/-- A decision is saved the same just when its first and last nodes are in one place. -/
theorem savedSame_iff_unmoved : o.SavedSame nodes r.nodes ↔ o.Unmoved nodes := by
  rw [Owned.SavedSame, savedPosition, savedPosition, decisionPosition?_eq, decisionPosition?_eq]
  by_cases called : Called nodes o.id
  case pos =>
    rw [positionsOf_of_called reconciled covered called]
    have unmoved : o.Unmoved nodes ↔ ∀ p ∈ (positionsOf nodes o.id).getLast?,
        ∀ q ∈ (positionsOf nodes o.id).head?, p.document.Same q.document :=
      ⟨fun h => h.called called, fun h => ⟨fun _ => h, absurd called⟩⟩
    rw [unmoved]
    cases positionsOf nodes o.id with
    | nil => simp [Document.same_refl]
    | cons p ps => simp [List.getLast?_cons]
  case neg =>
    rw [positionsOf_of_not_called reconciled called]
    have unmoved : o.Unmoved nodes ↔ ∀ p ∈ (positionsOf nodes o.id).getLast?,
        p.document.Same (o.decision.get "decision_node_position") :=
      ⟨fun h => h.uncalled called, fun h => ⟨fun yes => absurd yes called, fun _ => h⟩⟩
    rw [unmoved]
    cases (positionsOf nodes o.id).getLast? <;> simp [Document.same_refl]

/-- A graph in which no decision lacks its node is saved before and after it is reconciled, or fails
alike both times. What is saved is the same exactly if reconciling leaves every saved position as it
is. It does where no two decision nodes share an id and every function with a decision has a name.
As in all that is read, no map of the data has a key twice. -/
theorem saved_same_iff_unmoved (distinct : ∀ n ∈ regular nodes, (Document.map n.data).Distinct)
    (base : Option Document) :
    (∃ e, toFlow base nodes = .error e ∧ toFlow base r.nodes = .error e) ∨
      ∃ d d', toFlow base nodes = .ok d ∧ toFlow base r.nodes = .ok d' ∧
        (d.Same d' ↔ ∀ o : Owned, o.Held nodes → o.Unmoved nodes) ∧
        ((decisionIds nodes).Nodup → (∀ o : Owned, o.Held nodes → o.name.isTrue) → d.Same d') := by
  have same : regular r.nodes = regular nodes := (reconciles_of_reconcile reconciled).regular
  refine (toFlow_same_iff same distinct base).imp_right ?_
  rintro ⟨d, d', before, after, criterion⟩
  have unmoved : d.Same d' ↔ ∀ o : Owned, o.Held nodes → o.Unmoved nodes := by
    rw [criterion]
    exact forall₂_congr fun o _ => savedSame_iff_unmoved reconciled covered
  exact ⟨d, d', before, after, unmoved, fun once named => unmoved.2 fun o held =>
    .of_nodup once ⟨o, held.among (named o held), rfl⟩⟩

end

/-- A function with a decision. -/
def choosing : Owned where
  owner := {
    id := "ask", kind := "node", position := ⟨0.0, 0.0⟩
    data := [(.text "functions", .list [
      .object [("name", .text "choose"), ("decision", .object [("action", .text "pass")])]])] }
  function :=
    [(.text "name", .text "choose"), (.text "decision", .map [(.text "action", .text "pass")])]
  decision := [(.text "action", .text "pass")]

/-- What is left when a node is given the id of one that is gone: the decision node of its own, and
that of the other. -/
def revived : List Node :=
  let shown (position : Position) : Node :=
    { id := "decision-ask-choose", kind := Node.decisionKind, position, data := [] }
  [choosing.owner, shown ⟨1.0, 2.0⟩, shown ⟨3.0, 4.0⟩]

theorem held_choosing : choosing.Held revived := ⟨.head _, .head _, rfl⟩

theorem covered_revived {o : Owned} (among : o.Among revived) : o.id ∈ decisionIds revived := by
  obtain ⟨calls, calling, ids⟩ : ∃ calls, callsOf revived = .ok calls ∧
    callIds calls = ["decision-ask-choose"] := ⟨_, rfl, rfl⟩
  have called : o.id ∈ callIds calls := mem_callIds.2 ⟨o, (mem_callsOf calling).2 among, rfl⟩
  rw [ids, List.mem_singleton] at called
  rw [called]
  exact List.mem_cons_self

theorem distinct_revived : ∀ n ∈ regular revived, (Document.map n.data).Distinct := by
  simp [revived, choosing, Graph.regular, Node.isDecision, Node.decisionKind, Document.Distinct,
    Document.object, Scalar.Apart, Scalar.alike, Scalar.wholeValue?]

theorem saved_same_iff_unmoved_revived : ∃ r, reconcile {} revived = .ok r ∧
    (∀ o : Owned, o.Among revived → o.id ∈ decisionIds revived) ∧
    (∀ n ∈ regular revived, (Document.map n.data).Distinct) ∧
    ((∃ e, toFlow none revived = .error e ∧ toFlow none r.nodes = .error e) ∨
      ∃ d d', toFlow none revived = .ok d ∧ toFlow none r.nodes = .ok d' ∧
        (d.Same d' ↔ ∀ o : Owned, o.Held revived → o.Unmoved revived) ∧
        ((decisionIds revived).Nodup → (∀ o : Owned, o.Held revived → o.name.isTrue) →
          d.Same d')) := by
  obtain ⟨r, reconciled⟩ : ∃ r, reconcile {} revived = .ok r := ⟨_, rfl⟩
  have covered : ∀ o : Owned, o.Among revived → o.id ∈ decisionIds revived :=
    fun _ => covered_revived
  exact ⟨r, reconciled, covered, distinct_revived,
    saved_same_iff_unmoved reconciled covered distinct_revived none⟩

/-- It is saved with the position of the last decision node, and with that of the first once it is
reconciled. -/
theorem revived_saved_twice : ∃ r d d', reconcile {} revived = .ok r ∧
    (∀ o : Owned, o.Among revived → o.id ∈ decisionIds revived) ∧
    toFlow none revived = .ok d ∧ toFlow none r.nodes = .ok d' ∧ ¬d.Same d' := by
  obtain ⟨r, reconciled, first⟩ : ∃ r, reconcile {} revived = .ok r ∧
    savedPosition r.nodes choosing = Position.document ⟨1.0, 2.0⟩ := ⟨_, rfl, rfl⟩
  have last : savedPosition revived choosing = Position.document ⟨3.0, 4.0⟩ := rfl
  have apart : ¬choosing.SavedSame revived r.nodes := by
    rw [Owned.SavedSame, last, first]
    intro same
    obtain ⟨y, member, equal⟩ :=
      Document.mem_of_sameEntries same (.text "x", .float 3.0) (.head _)
    obtain rfl : y = .float 1.0 := by simpa using member
    have equal : Scalar.Same (.float 3.0) (.float 1.0) := equal
    exact absurd equal (not_or.2 ⟨by decide, by decide⟩)
  have same : regular r.nodes = regular revived := (reconciles_of_reconcile reconciled).regular
  obtain ⟨e, fails, -⟩ | ⟨d, d', before, after, criterion⟩ :=
    toFlow_same_iff same distinct_revived none
  · obtain ⟨d, saved⟩ : ∃ d, toFlow none revived = .ok d := ⟨_, rfl⟩
    cases fails.symm.trans saved
  · exact ⟨r, d, d', reconciled, fun _ => covered_revived, before, after,
      fun equal => apart (criterion.1 equal _ held_choosing)⟩

end Dialogue.Graph
