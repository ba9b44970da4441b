import Dialogue.Proofs.Flow.Shown

/-!
# Where functions lead

A function leads where its decision leads if it has one, else to its target. A flow is whole when
its ids and names tell nodes and functions apart and every route and stored edge ends at a node.
-/

namespace Dialogue

/-- The targets of the conditions in their order, then the default. -/
def Decision.targets (d : Decision) : List String := d.conditions.map (·.target) ++ [d.fallback]

namespace NodeFunction

/-- The nodes that a function can lead to. -/
def routes (f : NodeFunction) : List String :=
  match f.decision with
  | some d => d.targets
  | none => f.directTarget?.toList

/-- Every id that a function refers to, also a target beside its decision. -/
def references (f : NodeFunction) : List String :=
  (f.target.filter (· ≠ "")).toList ++ (f.decision.map (·.targets)).getD []

end NodeFunction

namespace Flow

def ids (f : Flow) : List String := f.nodes.map (·.id)

def references (f : Flow) : List String :=
  f.nodes.flatMap fun n => n.data.functionList.flatMap (·.references)

/-- The ids of a lawful flow are identifiers. -/
theorem Lawful.isIdentifier {f : Flow} (lawful : f.Lawful) :
    ∀ id ∈ f.ids, Identifier.isIdentifier id := by
  intro id member
  obtain ⟨n, there, rfl⟩ := List.mem_map.1 member
  exact (lawful.nodes n there).id

theorem Lawful.hyphenFree {f : Flow} (lawful : f.Lawful) : ∀ id ∈ f.ids, Identifier.HyphenFree id :=
  fun id member => Identifier.hyphenFree_of_isIdentifier (lawful.isIdentifier id member)

structure Whole (f : Flow) : Prop where
  ids : f.ids.Nodup
  names : ∀ n ∈ f.nodes, (n.data.functionList.map (·.name)).Nodup
  edges : ∀ e ∈ f.edges, e.source ∈ f.ids ∧ e.target ∈ f.ids
  routes : ∀ n ∈ f.nodes, ∀ g ∈ n.data.functionList, ∀ t ∈ g.routes, t ∈ f.ids

/-- Direct edges join nodes where routes end at nodes. -/
theorem ends_of_directEdges {ns : List FlowNode} {ids : List String}
    (sources : ∀ n ∈ ns, n.id ∈ ids)
    (routes : ∀ n ∈ ns, ∀ g ∈ n.data.functionList, ∀ t ∈ g.routes, t ∈ ids) :
    ∀ e ∈ ns.flatMap FlowNode.directEdges, e.source ∈ ids ∧ e.target ∈ ids := by
  intro e member
  obtain ⟨n, there, member⟩ := List.mem_flatMap.1 member
  obtain ⟨g, called, made⟩ := List.mem_filterMap.1 member
  obtain ⟨t, direct, rfl⟩ := Option.map_eq_some_iff.1 made
  refine ⟨sources n there, routes n there g called t ?_⟩
  cases h : g.decision <;> simp_all [NodeFunction.routes, NodeFunction.directTarget?]

end Flow

/-! ## Shown routes -/

variable {d : Document} {es : Entries}

/-- A value that shows no decision or one counts as true just when it shows one. -/
theorem Decision.OptionalIn.isTrue {o : Option Decision} (shown : OptionalIn d o) :
    d.isTrue = o.isSome := by
  cases o with
  | none =>
    obtain rfl : d = .null := shown
    rfl
  | some x =>
    obtain ⟨es, rfl, h⟩ := shown
    cases es with
    | nil => cases h.fallback
    | cons => rfl

/-- A shown target counts as absent when it is empty. -/
theorem NodeFunction.ShownBy.isTrue_target {f : NodeFunction} (shown : f.ShownBy es) :
    (es.get targetKey).isTrue = (f.target.filter (· ≠ "")).isSome := by
  rw [shown.target]
  cases f.target with
  | none => rfl
  | some t => by_cases h : t = "" <;> simp [Document.ofOption, Document.isTrue, h]

theorem FlowNode.ShownIn.field_id {n : FlowNode} (shown : n.ShownIn d) :
    d.field "id" = .ok (.text n.id) := by
  obtain ⟨es, rfl, h⟩ := shown
  simp [Document.field, Document.entries, Entries.get_of_get? h.id]

theorem NodeFunction.ShownIn.field_name {f : NodeFunction} (shown : f.ShownIn d) :
    d.field "name" = .ok (.text f.name) := by
  obtain ⟨es, rfl, h⟩ := shown
  simp [Document.field, Document.entries, h.name]

/-- The functions of a shown node are found in its document. -/
theorem Graph.functionItems_of_shownIn {n : FlowNode} (shown : n.ShownIn d) :
    ∃ ds, functionItems d = .ok ds ∧ List.Forall₂ NodeFunction.ShownIn ds n.data.functionList := by
  obtain ⟨es, rfl, ⟨-, data, maps, shown⟩⟩ := shown
  obtain ⟨ds, read, items⟩ := shown.functions.elementsOrNone
  refine ⟨ds, ?_, items⟩
  simp [functionItems, Document.field, Document.entries, maps.entriesOrNone, read]

/-! ## References -/

theorem decisionReferences_of_shown {o : Option Decision} (shown : Decision.OptionalIn d o) :
    decisionReferences d = .ok (((o.map (·.targets)).getD []).map .text) := by
  rw [decisionReferences, shown.isTrue]
  cases o with
  | none => rfl
  | some x =>
    obtain ⟨es, rfl, h⟩ := shown
    obtain ⟨ds, read, items⟩ := h.conditions.elementsOrNone
    have targets : ds.mapM (fun c => c.field targetKey) =
        .ok (x.conditions.map fun c => .text c.target) := by
      refine mapM_of_forall₂ items fun c condition h => ?_
      obtain ⟨es, rfl, target⟩ := h
      simp [Document.field, Document.entries, target]
    simp [Document.entries, read, targets, h.fallback, Decision.targets]

/-- All references of a shown function are found, in order. -/
theorem functionReferences_of_shownIn {f : NodeFunction} (shown : f.ShownIn d) :
    functionReferences d = .ok (f.references.map .text) := by
  obtain ⟨es, rfl, shown⟩ := shown
  simp only [functionReferences, Document.entries, ok_bind,
    decisionReferences_of_shown shown.decision, shown.isTrue_target, NodeFunction.references]
  cases h : f.target with
  | none => rfl
  | some t =>
    by_cases empty : t = "" <;>
      simp [shown.target, h, empty, Document.ofOption, Option.filter]

/-- All references of a shown node are found, function by function. -/
theorem nodeReferences_of_shownIn {n : FlowNode} (shown : n.ShownIn d) :
    nodeReferences d = .ok ((n.data.functionList.flatMap (·.references)).map .text) := by
  obtain ⟨ds, read, items⟩ := Graph.functionItems_of_shownIn shown
  have each := mapM_of_forall₂ items fun d f h => functionReferences_of_shownIn h
  simp [nodeReferences, read, each, List.flatMap_def, Function.comp_def]

/-- The references of a document are those of the flow that it shows. -/
theorem references_of_shownIn {f : Flow} (shown : f.ShownIn d) :
    references d = .ok (f.references.map .text) := by
  obtain ⟨es, rfl, ⟨⟨ds, stands, items⟩, -⟩⟩ := shown
  have each := mapM_of_forall₂ items fun d n h => nodeReferences_of_shownIn h
  simp [references, Document.field, Document.entries, stands, each, Flow.references,
    List.flatMap_def, Function.comp_def]

/-! ## A flow with a decision -/

def Flow.sample : Flow where
  info := { name := "Sample", version := "1.0.0" }
  nodes := [
    { id := "greet"
      role := .initial
      position := ⟨0.0, 0.0⟩
      data := {
        roleMessages := some [⟨.system, "Be brief."⟩]
        functions := some [
          { name := "choose"
            description := ""
            decision := some {
              action := "result = 1"
              conditions := [⟨.equal, "1", "close"⟩]
              fallback := "greet" } }] } },
    { id := "close", role := .plain, position := ⟨0.0, 300.0⟩, data := {} }]
  edges := []

theorem Flow.check_sample : Flow.check sample.document = .ok sample := rfl

end Dialogue
