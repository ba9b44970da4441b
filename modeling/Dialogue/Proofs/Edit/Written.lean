import Dialogue.Proofs.Edit.Removal
import Dialogue.Proofs.Edit.Rename
import Dialogue.Proofs.Graph.Gathering

/-!
# Edits of gathered documents

A document that is gathered from a graph is that of a flow. Renaming or deleting a node of it gives
the document of the renamed flow, or of the flow without the node.
-/

namespace Dialogue

open Document (ofOption listOf onMap onItems)
open Entries (ofFields)

/-! ## Renaming what is written -/

/-- Changing what is written of each item is writing changed items. -/
theorem Document.onItems_listOf {α : Type} {g : Document → Document} {write : α → Document}
    {h : α → α} (each : ∀ a, g (write a) = write (h a)) (as : List α) :
    onItems g (listOf write as) = listOf write (as.map h) := by
  simp [onItems, listOf, each]

section

variable (r : Renaming)

theorem Condition.document_renamed (c : Condition) :
    onMap r.inCondition c.document = (c.renamed r).document := by
  simp [Condition.document, Document.object, onMap, Renaming.inCondition, Entries.modify, targetKey,
    Condition.renamed]

theorem Decision.document_renamed (d : Decision) :
    onMap r.inDecision d.document = (d.renamed r).document := by
  have fallback : d.entries.modify fallbackKey r.value =
      ofFields ([
        ("action", some (.text d.action)),
        ("conditions", some (listOf Condition.document d.conditions))] ++
        (fallbackKey, some (.text (r.id d.fallback))) ::
        [("decision_node_position", d.position.map Position.document)]) := by
    rw [← Renaming.value_text]
    exact Entries.modify_ofFields [
      ("action", some (.text d.action)),
      ("conditions", some (listOf Condition.document d.conditions))]
      [("decision_node_position", d.position.map Position.document)]
      (by simp [fallbackKey]) (by simp [fallbackKey])
  have conditions := Document.onItems_listOf (Condition.document_renamed r) d.conditions
  rw [Decision.document_eq, Decision.document_eq, onMap, Renaming.inDecision, fallback, entries,
    fields, Decision.renamed, ← conditions]
  exact congrArg _ (Entries.modify_ofFields [("action", some (.text d.action))] _ (by simp)
    (by simp [fallbackKey]))

/-- Rewriting a written function is writing the renamed function. -/
theorem NodeFunction.document_renamed (f : NodeFunction) :
    onMap r.inFunction f.document = (f.renamed r).document := by
  have target : f.entries.modify targetKey r.value =
      ofFields (f.toSignature.fields ++ (targetKey, (f.target.map r.id).map .text) ::
        [("decision", f.decision.map Decision.document)]) := by
    have value : (f.target.map r.id).map Document.text = (f.target.map .text).map r.value := by
      simp [Function.comp_def]
    rw [value]
    exact Entries.modify_ofFields _ _ (by simp [Signature.fields, targetKey]) (by simp [targetKey])
  have decision : (f.decision.map (·.renamed r)).map Decision.document =
      (f.decision.map Decision.document).map (onMap r.inDecision) := by
    simp [Function.comp_def, Decision.document_renamed]
  have fields : (f.renamed r).fields =
      (f.toSignature.fields ++ [(targetKey, (f.target.map r.id).map .text)]) ++
        [("decision", (f.decision.map Decision.document).map (onMap r.inDecision))] := by
    rw [← decision]
    simp [NodeFunction.fields, NodeFunction.renamed, targetKey]
  rw [NodeFunction.document_eq, NodeFunction.document_eq, onMap, Renaming.inFunction, target,
    entries, fields]
  have joined (o : String × Option Document) : f.toSignature.fields ++
      (targetKey, (f.target.map r.id).map .text) :: [o] =
      (f.toSignature.fields ++ [(targetKey, (f.target.map r.id).map .text)]) ++ [o] := by simp
  rw [joined]
  exact congrArg _ (Entries.modify_ofFields _ [] (by simp [Signature.fields, targetKey]) (by simp))

/-- Only under its own key are there functions in the data. -/
theorem NodeData.entries_renamed {d : NodeData}
    (fresh : ∀ o ∈ d.others, o.1 ∉ Reading.dataFields) :
    r.inData d.entries = (d.renamed r).entries := by
  have functions : (d.functions.map (·.map (·.renamed r))).map (listOf NodeFunction.document) =
      (d.functions.map (listOf NodeFunction.document)).map (onItems (onMap r.inFunction)) := by
    cases d.functions with
    | none => rfl
    | some fs => simp [Document.onItems_listOf (NodeFunction.document_renamed r)]
  have others : ∀ f ∈ d.others.map (fun f => (f.1, some f.2)), f.1 ≠ "functions" := by
    intro f member same
    obtain ⟨o, there, rfl⟩ := List.mem_map.1 member
    have known : "functions" ∈ Reading.dataFields := by decide
    exact fresh o there (same ▸ known)
  rw [entries, entries, NodeData.renamed, fields, fields, functions]
  exact Entries.modify_ofFields [
    ("label", d.label.map .text),
    ("role_messages", d.roleMessages.map (listOf Message.document)),
    ("task_messages", d.taskMessages.map (listOf Message.document))] _ (by simp)
    (by simpa using others)

/-- The same for nodes, if their own data may be written. -/
theorem FlowNode.document_renamed {n : FlowNode} (writable : n.Writable) :
    onMap r.inNode n.document = (n.renamed r).document := by
  simp [FlowNode.document, Document.object, onMap, Renaming.inNode, Entries.modify,
    NodeData.document_eq, NodeData.entries_renamed r writable.others, FlowNode.renamed]

/-- A node with the new id in its references, and as its own if it has the old one. -/
def FlowNode.renamedAs (n : FlowNode) : FlowNode := { n.renamed r with id := r.id n.id }

/-- A renamed node may be written like the node itself. -/
theorem FlowNode.Writable.renamedAs {n : FlowNode} (writable : n.Writable) :
    (n.renamedAs r).Writable where
  named g called := by
    rw [FlowNode.renamedAs, FlowNode.renamed, NodeData.functionList_renamed] at called
    obtain ⟨f, member, rfl⟩ := List.mem_map.1 called
    exact writable.named f member
  others := writable.others

@[simp] theorem FlowNode.renamedAs_self (s : String) (n : FlowNode) :
    n.renamedAs ⟨s, s⟩ = n := by
  have id : Renaming.id ⟨s, s⟩ = fun t => t := by
    funext t
    by_cases same : t = s <;> simp [Renaming.id, same]
  have condition : (fun c : Condition => c.renamed ⟨s, s⟩) = fun c => c := by
    funext c
    simp [Condition.renamed, id]
  have decision : (fun d : Decision => d.renamed ⟨s, s⟩) = fun d => d := by
    funext d
    simp [Decision.renamed, id, condition]
  have function : (fun f : NodeFunction => f.renamed ⟨s, s⟩) = fun f => f := by
    funext f
    simp [NodeFunction.renamed, id, decision]
  simp [FlowNode.renamedAs, FlowNode.renamed, NodeData.renamed, id, function]

end

/-! ## Gathered documents -/

namespace Edit

variable {f : Flow} {ns ms : List FlowNode}

/-- A flow gathered of nodes that may be written is shown by what is gathered. -/
theorem shownBy_gathered (writable : ∀ n ∈ ns, n.Writable) :
    (f.withNodes ns).ShownBy (ofFields (f.withNodes ns).gatheredFields) := by
  have edges : (ofFields (f.withNodes ns).gatheredFields).get "edges" =
      listOf StoredEdge.document (ns.flatMap FlowNode.directEdges) := by
    simp [Flow.gatheredFields, Flow.headingFields, Flow.withNodes, Entries.get]
  refine ⟨⟨_, (f.withNodes ns).heldBy_gathered.nodes, FlowNode.shownIn_documents writable⟩, ?_⟩
  rw [edges]
  exact Document.lists_listOf fun e _ => e.shownIn_document

/-- Other nodes in a gathered document, and their edges, are those of the flow with these nodes. -/
theorem withNodes_gathered (writable : ∀ m ∈ ms, m.Writable) :
    withNodes (ofFields (f.withNodes ns).gatheredFields) (ms.map FlowNode.document) =
      .ok (f.withNodes ms).gathered := by
  have nodes : (ofFields (f.withNodes ns).gatheredFields).put "nodes"
      (listOf FlowNode.document ms) =
      ofFields (f.headingFields ++ ("nodes", some (listOf FlowNode.document ms)) ::
        [("edges", some (listOf StoredEdge.document (ns.flatMap FlowNode.directEdges)))]) :=
    Entries.put_ofFields f.headingFields _ (by simp [Flow.headingFields]) (.inl rfl)
  have edges : (ofFields ((f.headingFields ++ [("nodes", some (listOf FlowNode.document ms))]) ++
      ("edges", some (listOf StoredEdge.document (ns.flatMap FlowNode.directEdges))) :: [])).put
      "edges" (listOf StoredEdge.document (ms.flatMap FlowNode.directEdges)) =
      ofFields (f.withNodes ms).gatheredFields := by
    rw [Entries.put_ofFields _ [] (by simp [Flow.headingFields]) (.inl rfl), List.append_assoc]
    rfl
  rw [List.append_assoc] at edges
  simp only [withNodes, Graph.storedEdges_documents writable, ok_bind]
  rw [show Document.list (ms.map FlowNode.document) = listOf FlowNode.document ms from rfl, nodes]
  exact congrArg (Except.ok ∘ Document.map) edges

/-- Where ids differ, renaming the first node of an id renames the one. -/
theorem renameFirst_documents {r : Renaming} (nodup : (ns.map (·.id)).Nodup) :
    renameFirst r (ns.map FlowNode.document) =
      ns.map fun n => ({ n with id := r.id n.id } : FlowNode).document := by
  induction ns with
  | nil => rfl
  | cons n ns ih =>
    obtain ⟨apart, nodup⟩ := List.nodup_cons.1 nodup
    rw [List.map_cons, List.map_cons]
    by_cases here : n.id = r.old
    · have others : ∀ m ∈ ns, ({ m with id := r.id m.id } : FlowNode) = m := by
        intro m member
        have ne : m.id ≠ r.old := by
          intro same
          exact apart (List.mem_map.2 ⟨m, member, same.trans here.symm⟩)
        simp [Renaming.id, ne]
      have rest : ns.map (fun n => ({ n with id := r.id n.id } : FlowNode).document) =
          ns.map FlowNode.document :=
        List.map_congr_left fun m member => congrArg FlowNode.document (others m member)
      rw [rest]
      simp [FlowNode.document, Document.object, renameFirst, here, Renaming.id, Entries.get,
        Entries.put]
    · have rest := ih nodup
      simp_all [FlowNode.document, Document.object, renameFirst, Renaming.id, Entries.get]

/-- Renaming a node of a gathered document gives the document of the renamed flow. -/
theorem rename_gathered (settings : Settings) (r : Renaming) (writable : ∀ n ∈ ns, n.Writable)
    (nodup : (ns.map (·.id)).Nodup) :
    rename settings r (f.withNodes ns).gathered = (do
      let final ← finalId settings r ((ns.map (·.id)).map .text)
      .ok (f.withNodes (ns.map (·.renamedAs ⟨r.old, final⟩))).gathered) := by
  have plan : planRename settings r (f.withNodes ns).gathered =
      finalId settings r ((ns.map (·.id)).map .text) :=
    planRename_of_shownBy (shownBy_gathered writable)
  have stands : (ofFields (f.withNodes ns).gatheredFields).get "nodes" =
      .list (ns.map FlowNode.document) := (f.withNodes ns).heldBy_gathered.nodes
  rw [rename, plan]
  cases finalId settings r ((ns.map (·.id)).map .text) with
  | error e => rfl
  | ok final =>
    simp only [ok_bind, Flow.gathered, Document.asMap, liftM_eq_lift, lift_ok]
    by_cases same : final = r.old
    · simp [same]
    · have retargeted : (ns.map FlowNode.document).mapM
            (fun d => (Renaming.node ⟨r.old, final⟩ d).lift) =
          .ok ((ns.map (·.renamed ⟨r.old, final⟩)).map FlowNode.document) := by
        rw [List.map_map]
        refine mapM_map_eq_map fun n member => ?_
        rw [Renaming.node_of_shownIn _ (FlowNode.shownIn_document (writable n member)), lift_ok,
          FlowNode.document_renamed _ (writable n member)]
        rfl
      have first : renameFirst ⟨r.old, final⟩
          ((ns.map (·.renamed ⟨r.old, final⟩)).map FlowNode.document) =
          (ns.map (·.renamedAs ⟨r.old, final⟩)).map FlowNode.document := by
        rw [renameFirst_documents (by rwa [List.map_map]), List.map_map, List.map_map]
        rfl
      have renamed : ∀ m ∈ ns.map (·.renamedAs ⟨r.old, final⟩), m.Writable := by
        rw [List.forall_mem_map]
        exact fun n member => (writable n member).renamedAs _
      simp only [same, if_false, stands, Document.elements, lift_ok, ok_bind, retargeted, first,
        withNodes_gathered renamed, Flow.gathered]

/-- Deleting a node of a gathered document gives the document of the flow without it. -/
theorem delete_gathered {id : String} (unmanaged : Identifier.isManaged id = false)
    (writable : ∀ n ∈ ns, n.Writable) :
    delete id (f.withNodes ns).gathered =
      if id ∈ ns.map (·.id) then .ok (f.withNodes (ns.filter (·.id != id))).gathered
      else .error (.unknownNode id) := by
  have stands : (ofFields (f.withNodes ns).gatheredFields).get "nodes" =
      .list (ns.map FlowNode.document) := (f.withNodes ns).heldBy_gathered.nodes
  have kept : others id (ns.map FlowNode.document) =
      (ns.filter (·.id != id)).map FlowNode.document := by
    rw [others, List.filter_map]
    refine congrArg _ (List.filter_congr fun n member => ?_)
    rw [Function.comp_apply, isNamed_of_shownIn (FlowNode.shownIn_document (writable n member))]
    rfl
  have left : ∀ m ∈ ns.filter (·.id != id), m.Writable :=
    fun m member => writable m (List.mem_filter.1 member).1
  rw [Flow.gathered, delete_of_shownIn unmanaged stands (FlowNode.shownIn_documents writable), kept,
    withNodes_gathered left]
  split <;> rfl

end Edit
end Dialogue
