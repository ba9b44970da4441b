import Dialogue.Flow.Writing
import Dialogue.Proofs.Flow.Shown

/-!
# Written flows

What stands under the keys of a written record. The document of a lawful flow shows the flow that it
is written from.
-/

namespace Dialogue

open Document (Lists ofOption listOf)
open Entries (ofFields)

variable {α : Type}

/-- A list that was written lists what was written, if each item is shown. -/
theorem Document.lists_listOf {shows : Document → α → Prop} {write : α → Document} {as : List α}
    (shown : ∀ a ∈ as, shows (write a) a) : (listOf write as).Lists shows as := by
  refine .inr ⟨_, rfl, ?_⟩
  rwa [List.forall₂_map_left_iff, List.forall₂_same]

/-- So does one that is written when it is set. -/
theorem Document.lists_ofOption {shows : Document → α → Prop} {write : α → Document}
    {o : Option (List α)} (shown : ∀ a ∈ o.getD [], shows (write a) a) :
    (ofOption (o.map (listOf write))).Lists shows (o.getD []) := by
  cases o with
  | none => exact .inl ⟨rfl, rfl⟩
  | some as => exact lists_listOf shown

/-- A condition is shown by the document that it is written as. -/
theorem Condition.shownIn_document (c : Condition) : c.ShownIn c.document := ⟨_, rfl, rfl⟩

namespace Decision

variable (d : Decision)

/-- The entries of a written decision. -/
def entries : Entries := ofFields d.fields

theorem document_eq : d.document = .map d.entries := rfl

@[simp] theorem get?_action : d.entries.get? "action" = some (.text d.action) := by
  simp [entries, fields]

@[simp] theorem get_conditions :
    d.entries.get "conditions" = listOf Condition.document d.conditions := by
  simp [entries, fields, Entries.get]

@[simp] theorem get_fallback : d.entries.get fallbackKey = .text d.fallback := by
  simp [entries, fields, Entries.get, fallbackKey]

@[simp] theorem get_position :
    d.entries.get "decision_node_position" = ofOption (d.position.map Position.document) := by
  simp [entries, fields, Entries.get, ofOption]

/-- What is written of a decision shows it. -/
theorem shownBy_entries : d.ShownBy d.entries where
  fallback := get_fallback d
  conditions := by
    rw [get_conditions]
    exact Document.lists_listOf fun c _ => c.shownIn_document

end Decision

namespace NodeFunction

variable (f : NodeFunction)

/-- The entries of a written function. -/
def entries : Entries := ofFields f.fields

theorem document_eq : f.document = .map f.entries := rfl

@[simp] theorem get_name : f.entries.get "name" = .text f.name := by
  simp [entries, fields, Signature.fields, Entries.get]

@[simp] theorem get_target : f.entries.get targetKey = ofOption (f.target.map .text) := by
  simp [entries, fields, Signature.fields, Entries.get, targetKey, ofOption]

@[simp] theorem get_decision :
    f.entries.get "decision" = ofOption (f.decision.map Decision.document) := by
  simp [entries, fields, Signature.fields, Entries.get, ofOption]

/-- What is written of a function shows it. -/
theorem shownBy_entries : f.ShownBy f.entries := by
  refine ⟨get_name f, get_target f, ?_⟩
  rw [get_decision]
  cases f.decision with
  | none => rfl
  | some d => exact ⟨d.entries, rfl, d.shownBy_entries⟩

theorem shownIn_document : f.ShownIn f.document := ⟨f.entries, rfl, f.shownBy_entries⟩

end NodeFunction

theorem Action.shownIn_document (a : Action) : a.ShownIn a.document :=
  ⟨_, rfl, by simp [Entries.get]⟩

/-! ## Nodes and flows -/

namespace NodeData

variable (d : NodeData)

/-- The entries of the written data of a node. -/
def entries : Entries := ofFields d.fields

theorem document_eq : d.document = .map d.entries := rfl

variable {d}

/-- Unknown fields do not stand under the keys of known ones. -/
theorem get?_others (fresh : ∀ o ∈ d.others, o.1 ∉ Reading.dataFields) {key : String}
    (known : key ∈ Reading.dataFields) :
    (ofFields (d.others.map fun f => (f.1, some f.2))).get? key = none := by
  refine Entries.get?_ofFields_of_fresh fun f member same => ?_
  obtain ⟨o, there, rfl⟩ := List.mem_map.1 member
  exact fresh o there (same ▸ known)

/-- Unknown fields do not hide the functions. -/
theorem get_functions (fresh : ∀ o ∈ d.others, o.1 ∉ Reading.dataFields) :
    d.entries.get "functions" = ofOption (d.functions.map (listOf NodeFunction.document)) := by
  have absent := get?_others fresh (show "functions" ∈ Reading.dataFields by decide)
  simp [entries, fields, Entries.get, ofOption, absent]

theorem get_roleMessages (fresh : ∀ o ∈ d.others, o.1 ∉ Reading.dataFields) :
    d.entries.get "role_messages" = ofOption (d.roleMessages.map (listOf Message.document)) := by
  have absent := get?_others fresh (show "role_messages" ∈ Reading.dataFields by decide)
  simp [entries, fields, Entries.get, ofOption, absent]

theorem get_postActions (fresh : ∀ o ∈ d.others, o.1 ∉ Reading.dataFields) :
    d.entries.get "post_actions" = ofOption (d.postActions.map (listOf Action.document)) := by
  have absent := get?_others fresh (show "post_actions" ∈ Reading.dataFields by decide)
  simp [entries, fields, Entries.get, ofOption, absent]

/-- What is written of node data shows them, if unknown fields are called otherwise. -/
theorem shownBy_entries (fresh : ∀ o ∈ d.others, o.1 ∉ Reading.dataFields) :
    d.ShownBy d.entries where
  functions := by
    rw [get_functions fresh]
    exact Document.lists_ofOption fun f _ => f.shownIn_document
  role := by
    refine derive_of_shown (R := fun _ _ => True) ?_ ?_
    · rw [get_postActions fresh]
      exact Document.lists_ofOption fun a _ => a.shownIn_document
    · rw [get_roleMessages fresh]
      exact Document.lists_ofOption fun _ _ => trivial

end NodeData

/-- A node can be written if its functions have names and its unknown fields are not called like
known ones. Its id may be any text. -/
structure FlowNode.Writable (n : FlowNode) : Prop where
  named : ∀ f ∈ n.data.functionList, f.name ≠ ""
  others : ∀ o ∈ n.data.others, o.1 ∉ Reading.dataFields

/-- The nodes of an accepted flow may be written. -/
theorem FlowNode.Lawful.writable {n : FlowNode} (lawful : n.Lawful) : n.Writable where
  named f member := Identifier.ne_empty_of_isIdentifier (lawful.names f member)
  others := lawful.others

/-- A node is shown by the document that it is written as. -/
theorem FlowNode.shownIn_document {n : FlowNode} (writable : n.Writable) : n.ShownIn n.document :=
  ⟨_, rfl, rfl, n.data.entries, .inr rfl, NodeData.shownBy_entries writable.others⟩

theorem FlowNode.shownIn_documents {ns : List FlowNode} (writable : ∀ n ∈ ns, n.Writable) :
    List.Forall₂ FlowNode.ShownIn (ns.map FlowNode.document) ns := by
  rw [List.forall₂_map_left_iff, List.forall₂_same]
  exact fun n member => FlowNode.shownIn_document (writable n member)

theorem StoredEdge.shownIn_document (e : StoredEdge) : e.ShownIn e.document :=
  ⟨_, rfl, by simp [Entries.get], by simp [Entries.get]⟩

namespace Flow

variable (f : Flow)

/-- The entries of a written flow. -/
def entries : Entries := ofFields f.fields

theorem document_eq : f.document = .map f.entries := rfl

@[simp] theorem get_nodes : f.entries.get "nodes" = listOf FlowNode.document f.nodes := by
  simp [entries, fields, Entries.get]

@[simp] theorem get_edges : f.entries.get "edges" = listOf StoredEdge.document f.edges := by
  simp [entries, fields, Entries.get]

/-- A lawful flow is shown by the document that it is written as. -/
theorem shownIn_document {f : Flow} (lawful : f.Lawful) : f.ShownIn f.document := by
  have nodes := FlowNode.shownIn_documents fun n member => (lawful.nodes n member).writable
  refine ⟨f.entries, rfl, ⟨_, get_nodes f, nodes⟩, ?_⟩
  · rw [get_edges]
    exact Document.lists_listOf fun e _ => e.shownIn_document

/-- A lawful flow is lawful in its normal form. -/
theorem Lawful.normalize {f : Flow} (lawful : f.Lawful) : f.normalize.Lawful where
  nodes n member := by
    obtain ⟨m, there, rfl⟩ := List.mem_map.1 member
    exact ⟨(lawful.nodes m there).id, (lawful.nodes m there).names, (lawful.nodes m there).others⟩
  someNode := by simpa [Flow.normalize] using lawful.someNode

/-- Normalizing leaves the names of functions alone. -/
theorem names_normalize {f : Flow}
    (names : ∀ n ∈ f.nodes, (n.data.functionList.map (·.name)).Nodup) :
    ∀ n ∈ f.normalize.nodes, (n.data.functionList.map (·.name)).Nodup := by
  intro n member
  obtain ⟨m, there, rfl⟩ := List.mem_map.1 member
  exact names m there

@[simp] theorem ids_normalize : f.normalize.nodes.map (·.id) = f.nodes.map (·.id) := by
  simp [Flow.normalize, FlowNode.withRole]

end Flow
end Dialogue
