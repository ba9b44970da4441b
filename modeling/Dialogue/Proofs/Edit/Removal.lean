import Dialogue.Edit.Flow
import Dialogue.Proofs.Flow.Routing
import Dialogue.Proofs.Graph.Routes

/-!
# Documents without the nodes of an id

Deleting from a document that shows a flow leaves the nodes of other ids, or fails if there is none
of the id.
-/

namespace Dialogue.Edit

/-- Whether a node has an id. -/
def isNamed (id : String) (node : Document) : Bool := (node.field "id").toOption.any (·.isText id)

/-- The nodes that do not have an id, as they are and in order. -/
def others (id : String) (nodes : List Document) : List Document :=
  nodes.filter fun n => !isNamed id n

variable {id : String}

/-- A node is named as its id says. -/
theorem isNamed_of_shownIn {d : Document} {n : FlowNode} (shown : n.ShownIn d) :
    isNamed id d = (n.id == id) := by
  simp [isNamed, shown.field_id, Except.toOption]

theorem shownIn_others {ds : List Document} {ns : List FlowNode}
    (shown : List.Forall₂ FlowNode.ShownIn ds ns) :
    List.Forall₂ FlowNode.ShownIn (others id ds) (ns.filter (·.id ≠ id)) := by
  apply List.rel_filter _ shown
  intro d n shows
  simp [isNamed_of_shownIn shows]

/-- What is kept are the other nodes. -/
theorem kept_eq_others {ds ids : List Document} (read : nodeIds ds = .ok ids) :
    ((ds.zip ids).filter fun n => !n.2.isText id).map (·.1) = others id ds := by
  have related := mapM_eq_ok.1 read
  clear read
  induction related with
  | nil => rfl
  | @cons d n ds ids here _ ih =>
    have own : isNamed id d = n.isText id := by simp [isNamed, here, Except.toOption]
    rw [others] at ih ⊢
    rw [List.zip_cons_cons, List.filter_cons, List.filter_cons, own, ← ih]
    split <;> rfl

/-- No decision node can be deleted. -/
theorem delete_managed (managed : Identifier.isManaged id) (d : Document) :
    delete id d = .error (.managedNode id .delete) := by
  rw [delete, if_pos managed]

/-- What deleting does to a document that shows its nodes. -/
theorem delete_of_shownIn {es : Entries} {ds : List Document} {ns : List FlowNode}
    (unmanaged : Identifier.isManaged id = false) (stands : es.get "nodes" = .list ds)
    (shown : List.Forall₂ FlowNode.ShownIn ds ns) :
    delete id (.map es) =
      if id ∈ ns.map (·.id) then (withNodes es (others id ds)).lift
      else .error (.unknownNode id) := by
  have ids : nodeIds ds = .ok (ns.map fun n => .text n.id) :=
    mapM_of_forall₂ shown fun d n shows => shows.field_id
  have known : (ns.map fun n => Document.text n.id).any (·.isText id) =
      decide (id ∈ ns.map (·.id)) := by
    simp [List.any_eq]
  simp only [delete, unmanaged, Bool.false_eq_true, if_false, Document.asMap, liftM_eq_lift, lift_ok,
    ok_bind, stands, Document.elementsOrNone_list, ids, known, kept_eq_others ids]
  by_cases there : id ∈ ns.map (·.id) <;> simp [there]

end Dialogue.Edit
