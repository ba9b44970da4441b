import Dialogue.Check.Routing
import Dialogue.Proofs.Flow.Routing

/-!
# The check of a flow's graph is exact

On a document that shows a flow the check always gives its issues, and there are none but warnings
just when the flow is whole.
-/

namespace Dialogue.Check

/-- No issue is an error. -/
def Clear (issues : List RouteIssue) : Prop := ∀ i ∈ issues, i.severity ≠ .error

theorem clear_append {is js : List RouteIssue} : Clear (is ++ js) ↔ Clear is ∧ Clear js :=
  List.forall_mem_append

/-- Issues gathered item by item are clear if every item is in order. -/
theorem clear_flatten_of_forall₂ {α : Type} {p : α → Prop} {iss : List (List RouteIssue)}
    {as : List α} (h : List.Forall₂ (fun is a => Clear is ↔ p a) iss as) :
    Clear iss.flatten ↔ ∀ a ∈ as, p a := by
  induction h with
  | nil => simp [Clear]
  | cons here _ ih => rw [List.flatten_cons, clear_append, here, ih, List.forall_mem_cons]

/-- Errors made of items are clear only when there are none. -/
theorem clear_map {α : Type} {i : α → RouteIssue} (error : ∀ a, (i a).severity = .error)
    {as : List α} : Clear (as.map i) ↔ as = [] := by
  cases as <;> simp [Clear, error]

/-- A check that gives its issues, none of them an error just when `p` holds. -/
def ClearIff (x : Loose (List RouteIssue)) (p : Prop) : Prop := ∃ is, x = .ok is ∧ (Clear is ↔ p)

/-- Checking items one by one, each with its place, checks them all. -/
theorem clearIff_items {α β : Type} {R : α → β → Prop} {p : β → Prop}
    {f : α × Nat → Loose (List RouteIssue)} {xs : List α} {ys : List β}
    (items : List.Forall₂ R xs ys) (step : ∀ x y, R x.1 y → ClearIff (f x) (p y)) :
    ∃ iss, xs.zipIdx.mapM f = .ok iss ∧ (Clear iss.flatten ↔ ∀ y ∈ ys, p y) := by
  obtain ⟨iss, run, each⟩ := exists_mapM_of_forall₂ (forall₂_zipIdx items 0) step
  exact ⟨iss, run, clear_flatten_of_forall₂ each⟩

/-! ## Sets of texts -/

@[simp] theorem has_texts (seen : List String) (s : String) :
    Keys.has (seen.map .text) (.text s) = decide (s ∈ seen) := by
  induction seen with
  | nil => rfl
  | cons t seen ih =>
    simp only [Keys.has, List.map_cons, List.any_cons, Scalar.alike_text] at ih ⊢
    rw [ih]
    by_cases h : s = t <;> simp [h]

/-- Whether an id is missing is told by the list of ids. -/
theorem isMissing_text (ids : List String) (t : String) :
    isMissing (ids.map .text) (.text t) = .ok (!decide (t ∈ ids)) := by
  simp [isMissing, Document.asKey]

/-- No name is met again just when they all differ. -/
theorem repeats_of_forall₂ {α : Type} {key : α → Loose Document} {xs : List α} {names : List String}
    (items : List.Forall₂ (fun x s => key x = .ok (.text s)) xs names) (seen : List String)
    (place : Nat) :
    ∃ found, repeats key (seen.map .text) place xs = .ok found ∧
      (found = [] ↔ names.Nodup ∧ ∀ s ∈ names, s ∉ seen) := by
  induction items generalizing seen place with
  | nil => exact ⟨[], rfl, by simp⟩
  | @cons x s xs names here _ ih =>
    obtain ⟨rest, run, fresh⟩ := ih (s :: seen) (place + 1)
    rw [List.map_cons] at run
    refine ⟨_, by simp only [repeats, here, ok_bind, Document.asKey, run, has_texts]; rfl, ?_⟩
    by_cases member : s ∈ seen
    · simp [member]
    · have apart : (∀ t ∈ names, t ∉ s :: seen) ↔ s ∉ names ∧ ∀ t ∈ names, t ∉ seen := by
        simp only [List.mem_cons, not_or, forall_and]
        exact and_congr_left' ⟨fun h there => h s there rfl, fun h t there same => h (same ▸ there)⟩
      simp only [member, decide_false, Bool.false_eq_true, if_false, fresh, apart, List.nodup_cons,
        List.forall_mem_cons, not_false_eq_true, true_and]
      tauto

/-! ## Issues of shown parts -/

variable {d : Document} {es : Entries}

/-- Names are in order when no function of the node is called like another. -/
theorem clearIff_functionNameIssues {n : FlowNode} (node : Document × Nat)
    (shown : n.ShownIn node.1) :
    ClearIff (functionNameIssues node) (n.data.functionList.map (·.name)).Nodup := by
  obtain ⟨ds, read, items⟩ := Graph.functionItems_of_shownIn shown
  have named := List.forall₂_map_right_iff (f := fun f : NodeFunction => f.name)
    (R := fun (d : Document) s => d.field "name" = .ok (.text s)).2
    (items.imp fun _ _ h => h.field_name)
  obtain ⟨found, run, fresh⟩ := repeats_of_forall₂ named [] 0
  rw [List.map_nil] at run
  refine ⟨found.map (functionNameIssue node.2 (.text n.id)), ?_, ?_⟩
  · simp [functionNameIssues, read, shown.field_id, run]
  · rw [clear_map fun _ => rfl, fresh]
    simp

theorem clearIff_issueIfMissing (ids : List String) {i : Document → RouteIssue}
    (error : ∀ d, (i d).severity = .error) (t : String) :
    ClearIff (issueIfMissing (ids.map .text) i (.text t)) (t ∈ ids) := by
  simp only [issueIfMissing, isMissing_text, ok_bind]
  by_cases member : t ∈ ids
  · exact ⟨[], by simp [member], by simp [Clear, member]⟩
  · exact ⟨[i (.text t)], by simp [member], by simp [Clear, member, error]⟩

/-- An edge is in order when both of its ends are nodes. -/
theorem clearIff_edgeIssues (ids : List String) {e : StoredEdge} (edge : Document × Nat)
    (shown : e.ShownIn edge.1) :
    ClearIff (edgeIssues (ids.map .text) edge) (e.source ∈ ids ∧ e.target ∈ ids) := by
  obtain ⟨d, i⟩ := edge
  obtain ⟨es, rfl, h⟩ := shown
  have ends (field keyword title t : String) (stands : es.get field = .text t) :
      ClearIff (edgeEndIssues (ids.map .text) i field keyword title es) (t ∈ ids) := by
    simp only [edgeEndIssues, stands, isMissing_text, ok_bind]
    by_cases member : t ∈ ids
    · exact ⟨[], by simp [member], by simp [Clear, member]⟩
    · refine ⟨_, by simp only [member]; rfl, by simp [Clear, member, edgeEndIssue]⟩
  obtain ⟨is, sources, clear⟩ := ends "source" "edgeSourceExists" "Edge source" _ h.source
  obtain ⟨js, targets, clear'⟩ := ends "target" "edgeTargetExists" "Edge target" _ h.target
  refine ⟨is ++ js, ?_, by rw [clear_append, clear, clear']⟩
  simp [edgeIssues, Document.entries, sources, targets]

theorem clearIff_decisionIssues (ids : List String) {x : Decision} (p : Place)
    (shown : x.ShownBy es) :
    ClearIff (decisionIssues (ids.map .text) p es) (∀ t ∈ x.targets, t ∈ ids) := by
  obtain ⟨is, fallback, clear⟩ :=
    clearIff_issueIfMissing ids (i := fallbackIssue p) (fun _ => rfl) x.fallback
  obtain ⟨ds, read, items⟩ := shown.conditions.elementsOrNone
  obtain ⟨iss, branches, clear'⟩ := clearIff_items (p := fun c : Condition => c.target ∈ ids)
    (f := conditionIssues (ids.map .text) p) items (by
      rintro ⟨_, i⟩ c ⟨es, rfl, target⟩
      rw [targetKey] at target
      simpa [conditionIssues, Document.field, Document.entries, target] using
        clearIff_issueIfMissing ids (i := conditionIssue p i) (fun _ => rfl) c.target)
  have default : es.get "default_next_node_id" = .text x.fallback := shown.fallback
  refine ⟨is ++ iss.flatten, ?_, ?_⟩
  · simp [decisionIssues, default, fallback, read, branches]
  · rw [clear_append, clear, clear', Decision.targets, List.forall_mem_append, List.forall_mem_map,
      List.forall_mem_singleton, and_comm]

/-- A function is in order when all its live routes lead to nodes. -/
theorem clearIff_functionIssues (ids : List String) {f : NodeFunction} (p : Place)
    (shown : f.ShownBy p.function) :
    ClearIff (functionIssues (ids.map .text) p) (∀ t ∈ f.routes, t ∈ ids) := by
  have own : (p.function.get "next_node_id").isTrue = (f.target.filter (· ≠ "")).isSome :=
    shown.isTrue_target
  have target : p.function.get "next_node_id" = .ofOption (f.target.map .text) := shown.target
  have decided := shown.decision
  simp only [functionIssues, decided.isTrue, own]
  cases h : f.decision with
  | some x =>
    rw [h] at decided
    obtain ⟨es, stands, shows⟩ := decided
    obtain ⟨is, run, clear⟩ := clearIff_decisionIssues ids p shows
    exact ⟨is, by simp [stands, Document.entries, run], by simp [clear, NodeFunction.routes, h]⟩
  | none =>
    cases t : f.target with
    | none =>
      exact ⟨[], rfl, by simp [Clear, NodeFunction.routes, NodeFunction.directTarget?, h, t]⟩
    | some t' =>
      by_cases empty : t' = ""
      · exact ⟨[], by simp [empty, Option.filter],
          by simp [Clear, NodeFunction.routes, NodeFunction.directTarget?, h, t, empty]⟩
      · have missing := clearIff_issueIfMissing ids (i := targetIssue p) (fun _ => rfl) t'
        simpa [target, t, empty, Option.filter, Document.ofOption, NodeFunction.routes,
          NodeFunction.directTarget?, h] using missing

theorem clearIff_nodeIssues (ids : List String) {n : FlowNode} (node : Document × Nat)
    (shown : n.ShownIn node.1) :
    ClearIff (nodeIssues (ids.map .text) node)
      (∀ f ∈ n.data.functionList, ∀ t ∈ f.routes, t ∈ ids) := by
  obtain ⟨ds, read, items⟩ := Graph.functionItems_of_shownIn shown
  obtain ⟨iss, run, clear⟩ :=
    clearIff_items (p := fun f : NodeFunction => ∀ t ∈ f.routes, t ∈ ids) (f := fun f => do
      functionIssues (ids.map .text) ⟨functionPath node.2 f.2, .text n.id, ← f.1.entries⟩) items (by
      rintro ⟨_, i⟩ f ⟨es, rfl, h⟩
      exact clearIff_functionIssues ids ⟨_, _, es⟩ h)
  exact ⟨iss.flatten, by simp [nodeIssues, shown.field_id, read, run], clear⟩

/-- A shown node is initial as its data say. -/
theorem isInitial_of_shownIn {n : FlowNode} (shown : n.ShownIn d) :
    isInitial d = .ok (n.data.role = .initial) := by
  obtain ⟨es, rfl, -, ds, maps, h⟩ := shown
  have derived : Role.derive (es.get "data") = .ok n.data.role := by
    obtain ⟨absent, rfl⟩ | stands := maps
    · rw [absent, ← h.role]
      rfl
    · rw [stands, h.role]
  simp [isInitial, Document.field, Document.entries, derived]

/-- More than one initial node is worth a warning only. -/
theorem clear_initialIssues {nodes : List Document} {ns : List FlowNode}
    (shown : List.Forall₂ FlowNode.ShownIn nodes ns) :
    ∃ is, initialIssues nodes = .ok is ∧ Clear is := by
  have each : ∀ x ∈ nodes.zipIdx, ∃ n : FlowNode, n.ShownIn x.1 := fun x member =>
    (exists_of_mem_left (forall₂_zipIdx shown 0) member).imp fun _ h => h.2
  have initial : nodes.zipIdx.filterM (fun n => isInitial n.1) =
      .ok (nodes.zipIdx.filter fun n => (isInitial n.1).toOption.getD false) :=
    filterM_eq_filter fun x member => by
      obtain ⟨n, h⟩ := each x member
      simp [isInitial_of_shownIn h, Except.toOption]
  have ids : (nodes.zipIdx.filter fun n => (isInitial n.1).toOption.getD false).mapM
      (fun n => return (← n.1.field "id", n.2)) = .ok _ :=
    mapM_eq_map (g := fun n => (((n.1.field "id").toOption.getD .null), n.2)) fun x member => by
      obtain ⟨n, h⟩ := each x (List.mem_of_mem_filter member)
      simp [h.field_id, Except.toOption]
  simp only [initialIssues, initial, ok_bind, ids]
  split
  · exact ⟨[], rfl, nofun⟩
  · refine ⟨_, rfl, fun i member => ?_⟩
    obtain ⟨extra, -, rfl⟩ := List.mem_map.1 member
    exact nofun

/-! ## The whole document -/

/-- The check of a document that shows a flow gives no errors just when the flow is whole. -/
theorem clearIff_routeIssues {f : Flow} (shown : f.ShownIn d) :
    ClearIff (routeIssues d) f.Whole := by
  obtain ⟨es, rfl, ⟨ds, stands, nodes⟩, edges⟩ := shown
  have named := List.forall₂_map_right_iff (f := FlowNode.id)
    (R := fun (d : Document) s => d.field "id" = .ok (.text s)).2
    (nodes.imp fun _ _ h => h.field_id)
  obtain ⟨repeated, repeats_run, fresh⟩ := repeats_of_forall₂ named [] 0
  obtain ⟨names, names_run, names_clear⟩ :=
    clearIff_items nodes fun _ _ h => clearIff_functionNameIssues _ h
  have ids : ds.mapM (fun n => do (← n.field "id").asKey) = .ok (f.nodes.map fun n => .text n.id) :=
    mapM_of_forall₂ nodes fun d n h => by simp [h.field_id, Document.asKey]
  obtain ⟨items, read, edges⟩ := edges.elementsOrNone
  obtain ⟨ends, ends_run, ends_clear⟩ :=
    clearIff_items edges fun _ _ h => clearIff_edgeIssues f.ids _ h
  obtain ⟨routes, routes_run, routes_clear⟩ :=
    clearIff_items nodes fun _ _ h => clearIff_nodeIssues f.ids _ h
  obtain ⟨initial, initial_run, warnings⟩ := clear_initialIssues nodes
  have texts : f.nodes.map (fun n => Scalar.text n.id) = f.ids.map .text := by
    simp [Flow.ids]
  rw [texts] at ids
  rw [List.map_nil] at repeats_run
  refine ⟨repeated.map nodeIdIssue ++ names.flatten ++ ends.flatten ++ routes.flatten ++ initial,
    ?_, ?_⟩
  · simp [routeIssues, Document.entries, stands, repeats_run, names_run, ids, read, ends_run,
      routes_run, initial_run]
  · simp only [clear_append, clear_map (i := nodeIdIssue) fun _ => rfl, fresh, names_clear,
      ends_clear, routes_clear, warnings, and_true, List.not_mem_nil, not_false_eq_true,
      implies_true]
    constructor
    · rintro ⟨⟨⟨ids, names⟩, ends⟩, routes⟩
      exact ⟨ids, names, ends, routes⟩
    · exact fun h => ⟨⟨⟨h.ids, h.names⟩, h.edges⟩, h.routes⟩

theorem clear_iff_filter {is : List RouteIssue} :
    Clear is ↔ is.filter (fun i => i.severity = .error) = [] := by
  simp [Clear, List.filter_eq_nil_iff]

/-- What may be exported are the documents of whole flows. -/
theorem exportable_eq_ok {f : Flow} : exportable d = .ok f ↔ Flow.check d = .ok f ∧ f.Whole := by
  cases read : Flow.check d with
  | error issues => simp [exportable, Flow.ofDocument, read, Except.mapError]
  | ok g =>
    obtain ⟨is, run, clear⟩ := clearIff_routeIssues (Flow.shownIn_of_check read).1
    rw [clear_iff_filter] at clear
    simp only [exportable, Flow.ofDocument, read, Except.mapError, ok_bind, run, liftM_eq_lift,
      lift_ok, Except.ok.injEq]
    split
    case h_1 none =>
      simp only [Except.ok.injEq]
      exact ⟨fun same => ⟨same, same ▸ clear.1 none⟩, And.left⟩
    case h_2 some =>
      refine ⟨nofun, ?_⟩
      rintro ⟨rfl, whole⟩
      exact absurd (clear.2 whole) some

end Dialogue.Check
