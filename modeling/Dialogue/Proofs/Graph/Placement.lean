import Dialogue.Proofs.Document.Same
import Dialogue.Proofs.Graph.Expansion

/-!
# Placed decisions

A graph that is gathered leaves its flow with every decision placed: where it was, or below its
owner where it had no position. The functions keep all else, so the routes stay the same.
-/

namespace Dialogue

open Document (ofOption listOf)
open Entries (ofFields)

/-! ## Placing the decisions of a flow -/

/-- The decision with a position: its own, or else the one given. -/
def Decision.placedAt (d : Decision) (p : Position) : Decision :=
  { d with position := some (d.position.getD p) }

def NodeFunction.placedAt (f : NodeFunction) (p : Position) : NodeFunction :=
  { f with decision := f.decision.map (·.placedAt p) }

def NodeData.placedAt (d : NodeData) (p : Position) : NodeData :=
  { d with functions := d.functions.map (·.map (·.placedAt p)) }

/-- Where the decisions of a node stand that have no position. -/
def FlowNode.below (settings : Settings) (n : FlowNode) : Position :=
  ⟨n.position.x + settings.decisionOffset.x, n.position.y + settings.decisionOffset.y⟩

def FlowNode.placed (settings : Settings) (n : FlowNode) : FlowNode :=
  { n with data := n.data.placedAt (n.below settings) }

/-- The flow with a position in every decision. -/
def Flow.placed (settings : Settings) (f : Flow) : Flow :=
  { f with nodes := f.nodes.map (FlowNode.placed settings) }

/-- Every decision has a position. -/
def Flow.Placed (f : Flow) : Prop :=
  ∀ n ∈ f.nodes, ∀ g ∈ n.data.functionList, ∀ d, g.decision = some d → d.position.isSome

@[simp] theorem NodeData.functionList_placedAt (d : NodeData) (p : Position) :
    (d.placedAt p).functionList = d.functionList.map (·.placedAt p) := by
  cases h : d.functions <;> simp [functionList, NodeData.placedAt, h]

/-- A decision that has a position keeps it. -/
theorem NodeFunction.placedAt_of_placed {f : NodeFunction} (p : Position)
    (placed : ∀ d, f.decision = some d → d.position.isSome) : f.placedAt p = f := by
  have same : f.decision.map (·.placedAt p) = f.decision := by
    cases h : f.decision with
    | none => rfl
    | some d =>
      obtain ⟨action, conditions, fallback, position⟩ := d
      obtain ⟨q, rfl⟩ : ∃ q, position = some q := Option.isSome_iff_exists.1 (placed _ h)
      rfl
  rw [NodeFunction.placedAt, same]

theorem NodeData.placedAt_of_placed {d : NodeData} (p : Position)
    (placed : ∀ g ∈ d.functionList, ∀ x, g.decision = some x → x.position.isSome) :
    d.placedAt p = d := by
  have same : d.functions.map (·.map (·.placedAt p)) = d.functions := by
    cases h : d.functions with
    | none => rfl
    | some fs =>
      have each : ∀ f ∈ fs, f.placedAt p = f := fun f member =>
        f.placedAt_of_placed p (placed f (by simpa [functionList, h] using member))
      simp [List.map_congr_left each]
  rw [NodeData.placedAt, same]

/-- A flow with all its decisions placed is left alone. -/
theorem Flow.placed_of_placed (settings : Settings) {f : Flow} (all : f.Placed) :
    f.placed settings = f := by
  have each : ∀ n ∈ f.nodes, n.placed settings = n := fun n member => by
    rw [FlowNode.placed, NodeData.placedAt_of_placed _ (all n member)]
  rw [Flow.placed, List.map_congr_left each, List.map_id']

/-- A position that was filled in is kept. -/
theorem FlowNode.placed_placed (settings settings' : Settings) (n : FlowNode) :
    (n.placed settings).placed settings' = n.placed settings := by
  have all : ∀ g ∈ (n.placed settings).data.functionList, ∀ d, g.decision = some d →
      d.position.isSome := by
    intro g called d decided
    simp only [FlowNode.placed, NodeData.functionList_placedAt] at called
    obtain ⟨f, -, rfl⟩ := List.mem_map.1 called
    obtain ⟨x, -, rfl⟩ := Option.map_eq_some_iff.1 decided
    rfl
  have data := (n.placed settings).data.placedAt_of_placed ((n.placed settings).below settings') all
  rw [FlowNode.placed, data]

/-- Placing decisions changes no route. -/
theorem FlowNode.directEdges_placedAt (n : FlowNode) (p : Position) :
    ({ n with data := n.data.placedAt p } : FlowNode).directEdges = n.directEdges := by
  have each (f : NodeFunction) : (f.placedAt p).directEdge? n.id = f.directEdge? n.id := by
    cases h : f.decision <;>
      simp [NodeFunction.directEdge?, NodeFunction.directTarget?, NodeFunction.placedAt, h]
  simp [FlowNode.directEdges, List.filterMap_map, each]

/-! ## Placing written decisions -/

theorem Decision.entries_put_position (d : Decision) (p : Position) :
    d.entries.put "decision_node_position" p.document =
      ({ d with position := some p } : Decision).entries :=
  Entries.put_ofFields [
    ("action", some (.text d.action)),
    ("conditions", some (listOf Condition.document d.conditions)),
    ("default_next_node_id", some (.text d.fallback))] [] (by simp) (.inr rfl)

theorem NodeFunction.fields_decision (f : NodeFunction) (o : Option Decision) :
    ({ f with decision := o } : NodeFunction).fields =
      (f.toSignature.fields ++ [("next_node_id", f.target.map .text)]) ++
        [("decision", o.map Decision.document)] := by
  simp [fields]

/-- Writing another decision into the fields is writing the function with it. -/
theorem NodeFunction.entries_put_decision (f : NodeFunction) (d : Decision) :
    f.entries.put "decision" d.document =
      ({ f with decision := some d } : NodeFunction).entries := by
  rw [entries, entries, f.fields_decision (some d),
    show f.fields = _ from f.fields_decision f.decision]
  exact Entries.put_ofFields _ [] (by simp [Signature.fields]) (.inr rfl)

/-- The same for the functions of node data. -/
theorem NodeData.entries_put_functions (d : NodeData) (fs gs : List NodeFunction)
    (there : d.functions = some fs) :
    d.entries.put "functions" (listOf NodeFunction.document gs) =
      ({ d with functions := some gs } : NodeData).entries := by
  rw [entries, entries, fields, fields, there]
  exact Entries.put_ofFields [
    ("label", d.label.map .text),
    ("role_messages", d.roleMessages.map (listOf Message.document)),
    ("task_messages", d.taskMessages.map (listOf Message.document))] _ (by simp) (.inl rfl)

/-! ## Places that are the same -/

section

open Document (Same sameEntries_of_forall₂ sameItems_of_forall₂ same_refl)

/-- Zeros are the same whatever their sign. -/
theorem Scalar.same_of_beq_zero {x y : Float} (left : (x == 0.0) = true)
    (right : (y == 0.0) = true) : Same (.float x) (.float y) := by
  refine .inr ?_
  rw [alike, wholeValue?, wholeValue?, Number.wholeValue?_of_beq_zero left,
    Number.wholeValue?_of_beq_zero right]
  rfl

theorem Number.unsigned_eq (x : Float) : unsigned x = x ∨ unsigned x = 0.0 ∧ (x == 0.0) = true := by
  cases h : (x == 0.0) <;> simp [unsigned, bne, h]

/-- A number without the sign of zero is the same number. -/
theorem Number.same_unsigned (x : Float) : Scalar.Same (.float (unsigned x)) (.float x) := by
  rcases unsigned_eq x with same | ⟨zero, h⟩
  · exact .inl (by rw [same])
  · rw [zero]
    exact Scalar.same_of_beq_zero rfl h

theorem Number.same_unsigned_add (x y : Float) :
    Scalar.Same (.float (unsigned x + y)) (.float (x + y)) := by
  rcases unsigned_eq x with same | ⟨zero, h⟩
  · exact .inl (by rw [same])
  · rw [zero]
    obtain rfl | rfl := eq_zero_or_negZero h
    · exact .inl rfl
    · rcases zero_add_eq_or y with same | ⟨left, right⟩
      · exact .inl (by rw [same])
      · exact Scalar.same_of_beq_zero left right

/-- Records with one field the same and the others equal. -/
theorem Document.same_record (before after : List (String × Option Document)) (key : String)
    {o o' : Option Document} (same : Option.Rel Same o o') :
    Same (record (before ++ (key, o) :: after)) (record (before ++ (key, o') :: after)) := by
  have refl (es : Entries) : List.Forall₂ (fun e f => e.1 = f.1 ∧ Same e.2 f.2) es es :=
    List.forall₂_same.2 fun e _ => ⟨rfl, same_refl e.2⟩
  refine sameEntries_of_forall₂ ?_
  change List.Forall₂ _ (ofFields _) (ofFields _)
  rw [Entries.ofFields_append, Entries.ofFields_append, Entries.ofFields_cons,
    Entries.ofFields_cons]
  refine List.rel_append (refl _) (List.rel_append ?_ (refl _))
  cases same with
  | none => exact .nil
  | some h => exact .cons ⟨rfl, h⟩ .nil

/-- Lists are the same if they are written of items that are. -/
theorem Document.same_listOf {α : Type} {f g : α → Document} {as : List α}
    (same : ∀ a ∈ as, Same (f a) (g a)) : Same (listOf f as) (listOf g as) := by
  refine sameItems_of_forall₂ ?_
  rw [List.forall₂_map_left_iff, List.forall₂_map_right_iff, List.forall₂_same]
  exact same

variable {p q : Position}

/-- A decision is the same at positions that are. -/
theorem Decision.same_placedAt (same : Same p.document q.document) (d : Decision) :
    Same (d.placedAt p).document (d.placedAt q).document := by
  refine Document.same_record [
    ("action", some (.text d.action)),
    ("conditions", some (listOf Condition.document d.conditions)),
    ("default_next_node_id", some (.text d.fallback))] [] "decision_node_position" (.some ?_)
  cases h : d.position with
  | none => exact same
  | some r => exact same_refl _

/-- So is its function. -/
theorem NodeFunction.same_placedAt (same : Same p.document q.document) (f : NodeFunction) :
    Same (f.placedAt p).document (f.placedAt q).document := by
  have decisions : Option.Rel Same ((f.decision.map (·.placedAt p)).map Decision.document)
      ((f.decision.map (·.placedAt q)).map Decision.document) := by
    cases f.decision with
    | none => exact .none
    | some d => exact .some (d.same_placedAt same)
  rw [document, document, placedAt, placedAt, fields_decision, fields_decision]
  exact Document.same_record _ [] "decision" decisions

/-- And so are the data of its node. -/
theorem NodeData.same_placedAt (same : Same p.document q.document) (d : NodeData) :
    Same (d.placedAt p).document (d.placedAt q).document := by
  have functions : Option.Rel Same
      ((d.functions.map (·.map (·.placedAt p))).map (listOf NodeFunction.document))
      ((d.functions.map (·.map (·.placedAt q))).map (listOf NodeFunction.document)) := by
    cases d.functions with
    | none => exact .none
    | some fs =>
      refine .some ?_
      simp only [listOf, List.map_map]
      exact Document.same_listOf fun f _ => f.same_placedAt same
  exact Document.same_record [
    ("label", d.label.map .text),
    ("role_messages", d.roleMessages.map (listOf Message.document)),
    ("task_messages", d.taskMessages.map (listOf Message.document))] _ "functions" functions

end

end Dialogue
