import Dialogue.Proofs.Edit.Canvas
import Dialogue.Proofs.Edit.Substitution
import Dialogue.Proofs.Graph.Calm

/-!
# Decisions of a renamed graph

Renaming a node of a graph puts the new id for the old one in all functions. Each decision that was
there still is, with its owner's id and its references renamed, and its node has to show the same
but for the owner.
-/

namespace Dialogue.Edit

open Document (onMap onItems)
open Dialogue.Graph (Node Owned ownedOf?)

/-! ## Functions -/

/-- Items are changed where they stand in a list; other values are left as they are. -/
theorem elementsOrNone_onItems {g : Document → Document} {d : Document} {ds : List Document}
    (elements : d.elementsOrNone = .ok ds) : ∃ ds', (onItems g d).elementsOrNone = .ok ds' ∧
      (d = .list ds ∧ ds' = ds.map g ∨ d ≠ .list ds ∧ ds' = ds) := by
  cases d with
  | list es =>
    obtain rfl := Except.ok.inj ((Document.elementsOrNone_list es).symm.trans elements)
    exact ⟨_, Document.elementsOrNone_list _, .inl ⟨rfl, rfl⟩⟩
  | _ => exact ⟨ds, elements, .inr ⟨by simp, rfl⟩⟩

/-- There are as many items as before. -/
theorem length_onItems {g : Document → Document} {d : Document} {ds : List Document}
    (elements : d.elementsOrNone = .ok ds) :
    ∃ ds', (onItems g d).elementsOrNone = .ok ds' ∧ ds'.length = ds.length := by
  obtain ⟨ds', elements', ⟨-, rfl⟩ | ⟨-, rfl⟩⟩ := elementsOrNone_onItems (g := g) elements
  · exact ⟨_, elements', List.length_map _⟩
  · exact ⟨_, elements', rfl⟩

theorem mapsOf_map_onMap (g : Entries → Entries) (ds : List Document) :
    Node.mapsOf (ds.map (onMap g)) = (Node.mapsOf ds).map g := by
  induction ds with
  | nil => rfl
  | cons d ds ih =>
    cases d with
    | map es => simp [Graph.mapsOf_cons_map, onMap, ih]
    | _ => simpa [Node.mapsOf, onMap] using ih

/-- A change of the maps among the functions is a change of the functions. -/
theorem functions_onItems {n m : Node} {g : Entries → Entries} {fs : List Entries}
    (functions : n.functions = .ok fs)
    (data : m.data.get "functions" = onItems (onMap g) (n.data.get "functions")) :
    m.functions = .ok (fs.map g) := by
  obtain ⟨ds, elements, h⟩ := bind_eq_ok.1 functions
  obtain rfl := Except.ok.inj h
  obtain ⟨ds', elements', cases⟩ := elementsOrNone_onItems (g := onMap g) elements
  rw [Node.functions, data, elements', ok_bind, pure_eq_ok]
  obtain ⟨-, rfl⟩ | ⟨other, rfl⟩ := cases
  · rw [mapsOf_map_onMap]
  · -- Without map entries there are no functions on either side.
    have none : Node.mapsOf ds' = [] := List.eq_nil_iff_forall_not_mem.2 fun f member =>
      other (Graph.eq_list_of_elementsOrNone elements (Graph.mem_mapsOf.1 member))
    rw [none, List.map_nil]

theorem get_functions_of_retargetNode {r : Renaming} {n m : Node} (h : retargetNode r n = .ok m)
    (notDecision : n.isDecision = false) :
    m.data.get "functions" = onItems (onMap r.inFunction) (n.data.get "functions") := by
  simp only [retargetNode, notDecision, Bool.not_false, Bool.true_and] at h
  split at h
  case isFalse none =>
    obtain rfl := Except.ok.inj h
    exact (Renaming.onItems_of_isTrue_false (by simpa using none)).symm
  case isTrue =>
    obtain ⟨count, counted, h⟩ := bind_eq_ok.1 h
    split at h
    case isTrue zero =>
      obtain rfl := Except.ok.inj h
      cases stands : n.data.get "functions" with
      | list ds =>
        rw [stands] at counted
        exact (Renaming.onItems_of_countReferences (zero ▸ counted)).symm
      | _ => rfl
    case isFalse =>
      obtain ⟨functions, made, h⟩ := bind_eq_ok.1 h
      obtain rfl := Except.ok.inj h
      rw [Entries.get_put_self]
      exact Renaming.eq_onItems_of_changeItems (fun _ _ => Renaming.function_eq_of_ok) made

/-! ## Decisions -/

/-- A decision once ids are renamed: its own references, and the id of its owner. -/
structure Moved (r : Renaming) (o o' : Owned) : Prop where
  owner : o'.owner.id = r.id o.owner.id
  name : o'.name = o.name
  decision : o'.decision = r.inDecision o.decision

/-- Rewriting a function moves the decision that it owns, and makes none. -/
theorem moved_ownedOf? {r : Renaming} {n m : Node} (id : m.id = r.id n.id) (f : Entries) :
    Option.Rel (Moved r) (ownedOf? n f) (ownedOf? m (r.inFunction f)) := by
  have name : (r.inFunction f).get "name" = f.get "name" := by
    rw [Renaming.inFunction, Entries.get_modify _ (by decide), Entries.get_modify _ (by decide)]
  have decision : (r.inFunction f).get "decision" = onMap r.inDecision (f.get "decision") := by
    rw [Renaming.inFunction, Entries.get_modify_self rfl, Entries.get_modify _ (by decide)]
  simp only [ownedOf?, decision, name]
  cases decided : f.get "decision" with
  | map d =>
    simp only [onMap]
    split
    · exact .some ⟨id, name, rfl⟩
    · exact .none
  | _ => exact .none

/-- Its decision node has to show what it showed, and the new id of the owner. -/
theorem Moved.summary {r : Renaming} {o o' : Owned} (moved : Moved r o o') {s : Entries}
    (summary : o.summary = .ok s) :
    o'.summary = .ok (s.put "source_node_id" (.text (r.id o.owner.id))) := by
  obtain ⟨conditions, elements, h⟩ := bind_eq_ok.1 summary
  obtain rfl := Except.ok.inj h
  have conditions' : (r.inDecision o.decision).get "conditions" =
      onItems (onMap r.inCondition) (o.decision.get "conditions") := by
    rw [Renaming.inDecision, Entries.get_modify_self rfl, Entries.get_modify _ (by decide)]
  have action : (r.inDecision o.decision).get? "action" = o.decision.get? "action" := by
    rw [Renaming.inDecision, Entries.get?_modify, if_neg (by decide), Entries.get?_modify,
      if_neg (by decide)]
  obtain ⟨cs, elements', length⟩ := length_onItems (g := onMap r.inCondition) elements
  simp only [Owned.summary, moved.owner, moved.name, moved.decision, conditions', action, elements',
    ok_bind, length]
  simp [Entries.put]

/-- So for all functions of a node. -/
theorem callsBy_moved {r : Renaming} {names : List Document} {n m : Node}
    (run : retargetNode r n = .ok m) : Graph.CallsBy (Moved r) n (renamed r names m) := by
  have kept : Keeps n m := keeps_retargetNode run
  have sort : (renamed r names m).isDecision = n.isDecision :=
    (isDecision_renamed r names m).trans kept.sort
  refine .of_functions sort fun notDecision fs functions => ?_
  have renames : renamed r names m = _ := renamed_of_regular (kept.sort.trans notDecision)
  have same : (renamed r names m).data = m.data := by
    rw [renames]
    split <;> rfl
  have id : (renamed r names m).id = r.id n.id := by
    rw [renames, ← kept.id, Renaming.id]
    split <;> rfl
  refine ⟨_, functions_onItems functions (same ▸ get_functions_of_retargetNode run notDecision), ?_⟩
  exact List.forall₂_map_right_iff.2 (List.forall₂_same.2 fun f _ => moved_ownedOf? id f)

end Dialogue.Edit
