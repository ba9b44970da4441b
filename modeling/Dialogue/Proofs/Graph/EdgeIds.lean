import Dialogue.Proofs.Graph.Expansion

/-!
# Ids of derived edges

The id of a derived edge is made of the node and the name of its function, and of the way on which
it leads there. Since neither of the first two holds a hyphen, the id tells all of them, whatever
the target is called. Only the label of an edge may differ from that of others with its id.
-/

namespace Dialogue

namespace Graph

open Identifier (decisionId)

/-- How an edge leaves a decision. -/
inductive Exit where
  | condition (index : Nat) (target : String)
  | fallback (target : String)
deriving DecidableEq

def Exit.target : Exit → String
  | .condition _ target | .fallback target => target

/-- What the id of the edge has after that of the decision. -/
def Exit.suffix : Exit → String
  | .condition index target => "-cond-" ++ toString index ++ "-" ++ target
  | .fallback target => "-default-" ++ target

/-- The way that an edge of a function takes: to its decision, on from there, or straight. -/
inductive Way where
  | handover
  | onward (exit : Exit)
  | direct (target : String)
deriving DecidableEq

/-- All that the id of an edge is made of. -/
structure EdgeKey where
  owner : String
  name : String
  way : Way

namespace EdgeKey

def id (k : EdgeKey) : String :=
  match k.way with
  | .handover => "edge-" ++ k.owner ++ "-" ++ decisionId k.owner k.name
  | .onward exit => "edge-" ++ decisionId k.owner k.name ++ exit.suffix
  | .direct target => "func-" ++ k.owner ++ "-" ++ k.name ++ "-" ++ target

def source (k : EdgeKey) : String :=
  match k.way with
  | .handover | .direct _ => k.owner
  | .onward _ => decisionId k.owner k.name

def target (k : EdgeKey) : String :=
  match k.way with
  | .handover => decisionId k.owner k.name
  | .onward exit => exit.target
  | .direct target => target

/-- The edge of a key with a label. -/
def edge (k : EdgeKey) (label : Document) : Edge where
  id := k.id
  source := .text k.source
  target := .text k.target
  label

end EdgeKey

/-! ## What an id tells -/

/-- Digits tell their number. -/
theorem digits_inj {m n : Nat} (same : Nat.toDigits 10 m = Nat.toDigits 10 n) : m = n := by
  simpa using congrArg (Nat.ofDigitChars 10 · 0) same

/-- The pieces between hyphens tell the text. -/
theorem splitOn_inj {s t : String} (same : s.toList.splitOn '-' = t.toList.splitOn '-') :
    s = t := by
  have joined := congrArg (List.intercalate ['-']) same
  rw [List.intercalate_splitOn, List.intercalate_splitOn] at joined
  exact String.toList_inj.1 joined

theorem splitOn_piece {xs : List Char} (free : '-' ∉ xs) (ys : List Char) :
    (xs ++ '-' :: ys).splitOn '-' = xs :: ys.splitOn '-' :=
  List.splitOn_append_cons_self_of_not_mem free ys

namespace Exit

/-- The pieces of the suffix between its hyphens. -/
def pieces : Exit → List (List Char)
  | .condition index target =>
    "cond".toList :: Nat.toDigits 10 index :: target.toList.splitOn '-'
  | .fallback target => "default".toList :: target.toList.splitOn '-'

/-- A way is written as its pieces. -/
theorem splitOn_suffix (e : Exit) :
    ∃ cs, e.suffix.toList = '-' :: cs ∧ cs.splitOn '-' = e.pieces := by
  cases e with
  | condition index target =>
    have digits : '-' ∉ Nat.toDigits 10 index := fun member =>
      absurd (Nat.isDigit_of_mem_toDigits (by decide) (by decide) member) (by decide)
    refine ⟨"cond".toList ++ '-' :: (Nat.toDigits 10 index ++ '-' :: target.toList), ?_, ?_⟩
    · simp [suffix]
    · rw [splitOn_piece (by decide), splitOn_piece digits, pieces]
  | fallback target =>
    refine ⟨"default".toList ++ '-' :: target.toList, ?_, ?_⟩
    · simp [suffix]
    · rw [splitOn_piece (by decide), pieces]

/-- Its pieces tell the way. -/
theorem pieces_inj {e e' : Exit} (same : e.pieces = e'.pieces) : e = e' := by
  cases e with
  | condition index target =>
    cases e' with
    | condition index' target' =>
      simp only [pieces, List.cons.injEq, true_and] at same
      rw [digits_inj same.1, splitOn_inj same.2]
    | fallback target' => simp [pieces] at same
  | fallback target =>
    cases e' with
    | condition index' target' => simp [pieces] at same
    | fallback target' => rw [splitOn_inj (List.cons.inj same).2]

end Exit

namespace EdgeKey

structure HyphenFree (k : EdgeKey) : Prop where
  owner : Identifier.HyphenFree k.owner
  name : Identifier.HyphenFree k.name

/-- The pieces of the id between its hyphens. -/
def pieces (k : EdgeKey) : List (List Char) :=
  match k.way with
  | .handover =>
    ["edge".toList, k.owner.toList, "decision".toList, k.owner.toList, k.name.toList]
  | .onward exit =>
    "edge".toList :: "decision".toList :: k.owner.toList :: k.name.toList :: exit.pieces
  | .direct target =>
    "func".toList :: k.owner.toList :: k.name.toList :: target.toList.splitOn '-'

/-- Where no part has hyphens the id of an edge falls apart into the parts. -/
theorem splitOn_id {k : EdgeKey} (plain : k.HyphenFree) :
    k.id.toList.splitOn '-' = k.pieces := by
  have mark : Identifier.decisionMark.toList = "decision".toList ++ ['-'] := rfl
  obtain ⟨owner, name, way⟩ := k
  have owned := splitOn_piece plain.owner
  have named := splitOn_piece plain.name
  cases way with
  | handover =>
    have chars : (id ⟨owner, name, .handover⟩).toList = "edge".toList ++ '-' ::
        (owner.toList ++ '-' :: ("decision".toList ++ '-' ::
          (owner.toList ++ '-' :: name.toList))) := by
      simp [id, Identifier.toList_decisionId, mark]
    rw [chars, splitOn_piece (by decide), owned, splitOn_piece (by decide), owned,
      List.splitOn_eq_singleton plain.name, pieces]
  | onward exit =>
    obtain ⟨cs, suffix, rest⟩ := exit.splitOn_suffix
    have chars : (id ⟨owner, name, .onward exit⟩).toList = "edge".toList ++ '-' ::
        ("decision".toList ++ '-' :: (owner.toList ++ '-' :: (name.toList ++ '-' :: cs))) := by
      simp [id, Identifier.toList_decisionId, mark, suffix]
    rw [chars, splitOn_piece (by decide), splitOn_piece (by decide), owned, named, rest, pieces]
  | direct target =>
    have chars : (id ⟨owner, name, .direct target⟩).toList = "func".toList ++ '-' ::
        (owner.toList ++ '-' :: (name.toList ++ '-' :: target.toList)) := by
      simp [id]
    rw [chars, splitOn_piece (by decide), owned, named, pieces]

/-- A handover has one piece too few to be an edge onward, whatever its node is called. -/
theorem handover_ne_onward {o o' f f' : String} {e : Exit} :
    pieces ⟨o, f, .handover⟩ ≠ pieces ⟨o', f', .onward e⟩ := by
  intro same
  cases e <;> simp [pieces, Exit.pieces, List.splitOn_ne_nil] at same

/-- So it tells what the edge is made of. -/
theorem id_inj {k l : EdgeKey} (plain : k.HyphenFree) (plain' : l.HyphenFree)
    (same : k.id = l.id) : k = l := by
  have same : k.pieces = l.pieces := by
    rw [← splitOn_id plain, ← splitOn_id plain', same]
  obtain ⟨o, f, way⟩ := k
  obtain ⟨o', f', way'⟩ := l
  cases way with
  | handover =>
    cases way' with
    | handover =>
      simp only [pieces, List.cons.injEq, true_and, and_true, String.toList_inj] at same
      rw [same.1, same.2.2]
    | onward e => exact absurd same handover_ne_onward
    | direct t => simp [pieces] at same
  | onward e =>
    cases way' with
    | handover => exact absurd same.symm handover_ne_onward
    | onward e' =>
      simp only [pieces, List.cons.injEq, true_and, String.toList_inj] at same
      rw [same.1, same.2.1, Exit.pieces_inj same.2.2]
    | direct t => simp [pieces] at same
  | direct t =>
    cases way' with
    | direct t' =>
      simp only [pieces, List.cons.injEq, true_and, String.toList_inj] at same
      rw [same.1, same.2.1, splitOn_inj same.2.2]
    | _ => simp [pieces] at same

end EdgeKey

end Graph

/-! ## The edges of a flow's graph -/

open Dialogue.Graph (Way Exit EdgeKey Edge)

/-- The test of a condition, as a label shows it. -/
def Condition.label (c : Condition) : String := "result " ++ c.operator.name ++ " " ++ c.value

/-- The ways out of a decision, with their labels. -/
def Decision.exits (d : Decision) : List (Exit × String) :=
  d.conditions.zipIdx.map (fun c => (.condition c.2 c.1.target, c.1.label)) ++
    [(.fallback d.fallback, "default")]

/-- The ways that the edges of a function take, with their labels. -/
def NodeFunction.ways (f : NodeFunction) : List (Way × Document) :=
  match f.decision with
  | some d => (.handover, .null) :: d.exits.map fun e => (.onward e.1, .text e.2)
  | none => f.directTarget?.toList.map fun t => (.direct t, .text f.name)

def NodeFunction.graphEdges (f : NodeFunction) (owner : String) : List Edge :=
  f.ways.map fun w => EdgeKey.edge ⟨owner, f.name, w.1⟩ w.2

def FlowNode.graphEdges (n : FlowNode) : List Edge :=
  n.data.functionList.flatMap (·.graphEdges n.id)

namespace Graph

open Identifier (decisionId)

section

variable (owner name : String)

theorem conditionEdge_document (index : Nat) (c : Condition) :
    conditionEdge (decisionId owner name) index c.document =
      .ok (EdgeKey.edge ⟨owner, name, .onward (.condition index c.target)⟩ (.text c.label)) := by
  simp [conditionEdge, Condition.document, Document.object, Document.entries, Entries.get,
    EdgeKey.edge, EdgeKey.id, EdgeKey.source, EdgeKey.target, Exit.suffix, Exit.target,
    conditionLabel, Condition.label, String.append_assoc]

/-- The conditions of a decision give edges in order, numbered by place. -/
theorem conditionEdges_document (cs : List Condition) :
    conditionEdges (decisionId owner name) (cs.map Condition.document) =
      .ok (cs.zipIdx.map fun c =>
        EdgeKey.edge ⟨owner, name, .onward (.condition c.2 c.1.target)⟩ (.text c.1.label)) := by
  simp only [conditionEdges, List.zipIdx_map]
  exact mapM_map_eq_map fun c _ => conditionEdge_document owner name c.2 c.1

theorem fallbackEdge_text (target : String) : fallbackEdge (decisionId owner name) (.text target) =
    EdgeKey.edge ⟨owner, name, .onward (.fallback target)⟩ (.text "default") := by
  simp [fallbackEdge, EdgeKey.edge, EdgeKey.id, EdgeKey.source, EdgeKey.target, Exit.suffix,
    Exit.target, String.append_assoc]

/-- A decision gives an edge to its node, and one for each way out. -/
theorem decisionEdges_entries (d : Decision) :
    decisionEdges (.text owner) (.text name) d.entries =
      .ok (EdgeKey.edge ⟨owner, name, .handover⟩ .null ::
        d.exits.map fun e => EdgeKey.edge ⟨owner, name, .onward e.1⟩ (.text e.2)) := by
  have fallback : d.entries.get "default_next_node_id" = .text d.fallback := d.get_fallback
  simp only [decisionEdges, Decision.get_conditions, Document.listOf, decisionIdOf_text,
    Document.display_text, Document.elementsOrNone_list, ok_bind, conditionEdges_document, fallback,
    fallbackEdge_text, Decision.exits, List.map_append, List.map_map]
  rfl

/-- A direct target gives one edge. -/
theorem directEdge_text (target : String) :
    directEdge (.text owner) (.text name) (.text target) =
      EdgeKey.edge ⟨owner, name, .direct target⟩ (.text name) := by
  simp [directEdge, EdgeKey.edge, EdgeKey.id, EdgeKey.source, EdgeKey.target]

end

/-- A function with a name gives the edges of its ways. -/
theorem functionEdges_entries (owner : String) {f : NodeFunction} (named : f.name ≠ "") :
    functionEdges (.text owner) f.entries = .ok (f.graphEdges owner) := by
  have isTrue : (Document.text f.name).isTrue := by simp [Document.isTrue, named]
  have target : f.entries.get "next_node_id" = .ofOption (f.target.map .text) := f.get_target
  simp only [functionEdges, isTrue, Bool.not_true, Bool.false_eq_true, if_false, target,
    NodeFunction.get_decision, NodeFunction.get_name, NodeFunction.graphEdges, NodeFunction.ways]
  cases h : f.decision with
  | some d =>
    simp [Document.ofOption, Decision.document_eq, decisionEdges_entries, Function.comp_def]
  | none =>
    cases t : f.target with
    | none => simp [Document.ofOption, NodeFunction.directTarget?, h, t, Document.isTrue]
    | some t' =>
      by_cases empty : t' = "" <;>
        simp [Document.ofOption, NodeFunction.directTarget?, h, t, empty, Document.isTrue,
          directEdge_text]

theorem deriveEdges_cons (n : Node) (ns : List Node) :
    deriveEdges (n :: ns) = (do
      let here ← nodeEdges n
      let rest ← deriveEdges ns
      return here ++ rest) := by
  simp only [deriveEdges, List.mapM_cons]
  cases nodeEdges n <;> cases ns.mapM nodeEdges <;> simp

/-- Decision nodes have no edges of their own. -/
theorem deriveEdges_regular (nodes : List Node) :
    deriveEdges (regular nodes) = deriveEdges nodes := by
  induction nodes with
  | nil => rfl
  | cons n ns ih =>
    rw [regular_cons, deriveEdges_cons]
    cases decision : n.isDecision with
    | true =>
      have none : nodeEdges n = .ok [] := by simp [nodeEdges, decision]
      rw [if_pos rfl, none, ok_bind, ih]
      cases deriveEdges ns <;> rfl
    | false => rw [if_neg (by decide), deriveEdges_cons, ih]

/-- The drawn nodes of a flow give the edges of all ways in it. -/
theorem deriveEdges_ofNodes {ns : List FlowNode} (lawful : ∀ n ∈ ns, n.Lawful) :
    deriveEdges (ns.map Node.ofNode) = .ok (ns.flatMap FlowNode.graphEdges) := by
  have nodes : (ns.map Node.ofNode).mapM nodeEdges = .ok (ns.map FlowNode.graphEdges) := by
    refine mapM_map_eq_map fun n member => ?_
    have each : (n.data.functionList.map NodeFunction.entries).mapM
        (functionEdges (.text n.id)) = .ok (n.data.functionList.map (·.graphEdges n.id)) :=
      mapM_map_eq_map fun f called => functionEdges_entries n.id
        (Identifier.ne_empty_of_isIdentifier ((lawful n member).names f called))
    have id : (Node.ofNode n).id = n.id := rfl
    simp [nodeEdges, functions_ofNode (lawful n member), id, each, FlowNode.graphEdges,
      List.flatMap_def]
  simp [deriveEdges, nodes, List.flatMap_def]

/-- The edges of a flow's graph are derived from the functions of its nodes. -/
theorem graphEdges_of_ofFlow {settings : Settings} {f : Flow} (lawful : f.Lawful) :
    ∃ nodes, ofFlow settings f.document = .ok (nodes, f.nodes.flatMap FlowNode.graphEdges) ∧
      (∃ r, reconcile settings (f.nodes.map Node.ofNode) = .ok r ∧ r.nodes = nodes) ∧
      deriveEdges nodes = .ok (f.nodes.flatMap FlowNode.graphEdges) := by
  obtain ⟨r, edges, reconciled, expands, derived⟩ :=
    exists_ofFlow settings f.get_nodes lawful.nodes
  have same : regular r.nodes = regular (f.nodes.map Node.ofNode) :=
    (reconciles_of_reconcile reconciled).regular
  have edges : deriveEdges r.nodes = .ok (f.nodes.flatMap FlowNode.graphEdges) := by
    rw [← deriveEdges_regular, same, deriveEdges_regular, deriveEdges_ofNodes lawful.nodes]
  obtain rfl := Except.ok.inj (derived.symm.trans edges)
  exact ⟨r.nodes, expands, ⟨r, reconciled, rfl⟩, edges⟩

end Graph

end Dialogue
