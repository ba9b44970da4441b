import Dialogue.Proofs.Check.Faults

/-!
# Where the targets of a flow stand

The steps to a node, to one of its functions and to a target of that lead, in any document that
shows the flow, to values that show the node and the function, and to the target.
-/

namespace Dialogue

variable {d : Document} {steps : List String}

theorem exists_getElem?_of_forall₂ {α β : Type} {R : α → β → Prop} {xs : List α} {ys : List β}
    (related : List.Forall₂ R xs ys) {i : Nat} {y : β} (there : ys[i]? = some y) :
    ∃ x, xs[i]? = some x ∧ R x y := by
  induction related generalizing i with
  | nil => simp at there
  | cons here _ ih =>
    cases i with
    | zero =>
      obtain rfl := Option.some.inj there
      exact ⟨_, rfl, here⟩
    | succ i => exact ih there

/-- An item of a shown list is shown by the item in its place. -/
theorem Document.Lists.exists_child {α : Type} {shows : Document → α → Prop} {as : List α} {a : α}
    (lists : d.Lists shows as) {i : Nat} (there : as[i]? = some a) :
    ∃ x, d.child? i.repr = some x ∧ shows x a := by
  obtain ⟨-, rfl⟩ | ⟨ds, rfl, items⟩ := lists
  · simp at there
  · rw [child?_list]
    exact exists_getElem?_of_forall₂ items there

/-- A path goes on in the child that its first step leads to. -/
theorem Document.at?_cons {x : Document} {step : String} (child : d.child? step = some x) :
    d.at? (step :: steps) = x.at? steps := by
  rw [at?, child, Option.bind_some]

theorem Condition.ShownIn.at?_target {c : Condition} (shown : c.ShownIn d) :
    d.at? ["next_node_id"] = some (.text c.target) := by
  obtain ⟨es, rfl, target⟩ := shown
  exact Document.at?_cons (Entries.get?_of_get target nofun)

/-- Where a function is shown, its live targets stand at their places. -/
theorem NodeFunction.ShownIn.at?_spot {g : NodeFunction} (shown : g.ShownIn d) {s : Spot}
    {t : String} (there : (s, t) ∈ g.targetsAt) : d.at? s.steps = some (.text t) := by
  obtain ⟨es, rfl, shown⟩ := shown
  have decided := shown.decision
  cases h : g.decision with
  | none =>
    obtain ⟨direct, rfl⟩ : g.directTarget? = some t ∧ .next = s := by
      simpa [targetsAt, h] using there
    have target : g.target = some t := by
      cases own : g.target <;> simp_all [directTarget?]
    have stands : es.get "next_node_id" = .text t := by
      have := shown.target
      rwa [target] at this
    exact Document.at?_cons (Entries.get?_of_get stands (by simp))
  | some x =>
    rw [h] at decided
    obtain ⟨ds, stands, shows⟩ := decided
    have decision : (Document.map es).child? "decision" = some (.map ds) :=
      Entries.get?_of_get stands (by simp)
    simp only [targetsAt, h, List.mem_cons, List.mem_map, Prod.mk.injEq, Prod.exists,
      List.mem_zipIdx_iff_getElem?] at there
    rcases there with ⟨rfl, rfl⟩ | ⟨c, k, branch, rfl, rfl⟩
    · rw [Spot.steps, Document.at?_cons decision]
      exact Document.at?_cons (Entries.get?_of_get shows.fallback (by simp))
    · obtain ⟨y, item, shown⟩ := shows.conditions.exists_child branch
      have conditions : (Document.map ds).child? "conditions" = some (ds.get "conditions") := by
        apply Entries.get?_of_get rfl
        intro none
        rw [none] at item
        cases item
      rw [Spot.steps, Document.at?_cons decision, Document.at?_cons conditions,
        Document.at?_cons item, shown.at?_target]

theorem FlowNode.ShownIn.at?_function {n : FlowNode} (shown : n.ShownIn d) {j : Nat}
    {g : NodeFunction} (function : n.data.functionList[j]? = some g) :
    ∃ x, g.ShownIn x ∧
      ∀ steps, d.at? ("data" :: "functions" :: j.repr :: steps) = x.at? steps := by
  obtain ⟨es, rfl, -, ds, maps, shown⟩ := shown
  obtain ⟨x, item, shows⟩ := shown.functions.exists_child function
  have functions : (Document.map ds).child? "functions" = some (ds.get "functions") := by
    apply Entries.get?_of_get rfl
    intro none
    rw [none] at item
    cases item
  have data : (Document.map es).child? "data" = some (.map ds) := by
    obtain ⟨-, rfl⟩ | stands := maps
    · cases functions
    · exact Entries.get?_of_get stands nofun
  refine ⟨x, shows, fun steps => ?_⟩
  rw [Document.at?_cons data, Document.at?_cons functions, Document.at?_cons item]

/-- Where a flow is shown, its nodes are shown at their places. -/
theorem Flow.ShownIn.at?_node {f : Flow} (shown : f.ShownIn d) {i : Nat} {n : FlowNode}
    (node : f.nodes[i]? = some n) :
    ∃ x, n.ShownIn x ∧ ∀ steps, d.at? ("nodes" :: i.repr :: steps) = x.at? steps := by
  obtain ⟨es, rfl, ⟨ds, stands, nodes⟩, -⟩ := shown
  obtain ⟨x, item, shows⟩ := exists_getElem?_of_forall₂ nodes node
  have list : (Document.map es).child? "nodes" = some (.list ds) :=
    Entries.get?_of_get stands nofun
  have child : (Document.list ds).child? i.repr = some x := by rw [Document.child?_list, item]
  refine ⟨x, shows, fun steps => ?_⟩
  rw [Document.at?_cons list, Document.at?_cons child]

end Dialogue
