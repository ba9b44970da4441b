import Dialogue.Graph.Source
import Dialogue.Proofs.Flow.Shown
import Dialogue.Proofs.Graph.Decisions

/-!
# Dragged decision nodes

What a dragged decision node leaves behind. The source of the node is one entry of one node's
functions, found by two searches and an index that counts map entries only. The new position is
written over that entry, but under the id of its owner: other regular nodes of the same id lose
their data to the owner's. On a graph without such twins nothing but positions changes.
-/

namespace Dialogue.Graph

/-! ## Entries found by counting maps -/

theorem mapsOf_cons_map (es : Entries) (ds : List Document) :
    Node.mapsOf (.map es :: ds) = es :: Node.mapsOf ds := rfl

theorem mapsOf_cons_of_not_map {d : Document} (other : d.isMap = false) (ds : List Document) :
    Node.mapsOf (d :: ds) = Node.mapsOf ds := by
  cases d with
  | map es => cases other
  | _ => rfl

/-- What is no map does not count. -/
theorem changeNth_cons_of_not_map {d : Document} (other : d.isMap = false)
    (change : Entries → Entries) (k : Nat) (ds : List Document) :
    changeNth change k (d :: ds) = d :: changeNth change k ds := by
  cases d with
  | map es => cases other
  | _ => cases k <;> rfl

/-- The `k`th map entry of a list is its `i`th item, `f`, and the first map that passes a test. -/
structure Picks (test : Entries → Bool) (ds : List Document) (k i : Nat) (f : Entries) : Prop where
  item : ds[i]? = some (.map f)
  passes : test f = true
  first : ∀ j < i, ∀ g, ds[j]? = some (.map g) → test g = false
  change : ∀ change, changeNth change k ds = ds.set i (.map (change f))

/-- An item that is passed over moves the one picked a place further. -/
theorem Picks.cons {test : Entries → Bool} {d : Document} {ds : List Document} {k k' i : Nat}
    {f : Entries} (h : Picks test ds k i f) (fails : ∀ g, d = .map g → test g = false)
    (next : ∀ change, changeNth change k' (d :: ds) = d :: changeNth change k ds) :
    Picks test (d :: ds) k' (i + 1) f where
  item := h.item
  passes := h.passes
  first
    | 0, _, g, at_j => fails g (by simpa using at_j)
    | j + 1, lt, g, at_j => h.first j (by omega) g at_j
  change change := by rw [next, h.change, List.set_cons_succ]

/-- A search among the maps picks one of the items. -/
theorem exists_picks_of_find {test : Entries → Bool} {ds : List Document} {start m : Nat}
    {f : Entries}
    (found : ((Node.mapsOf ds).zipIdx start).find? (fun e => test e.1) = some (f, m)) :
    ∃ k i, m = start + k ∧ Picks test ds k i f := by
  induction ds generalizing start with
  | nil => cases found
  | cons d ds ih =>
    cases isMap : d.isMap with
    | false =>
      rw [mapsOf_cons_of_not_map isMap] at found
      obtain ⟨k, i, number, picks⟩ := ih found
      refine ⟨k, i + 1, number, picks.cons (fun g same => ?_) fun change =>
        changeNth_cons_of_not_map isMap change k ds⟩
      rw [same] at isMap
      cases isMap
    | true =>
      obtain ⟨es, rfl⟩ := Document.exists_of_isMap isMap
      rw [mapsOf_cons_map, List.zipIdx_cons, List.find?_cons] at found
      cases passes : test es with
      | true =>
        simp only [passes, Option.some.injEq, Prod.mk.injEq] at found
        obtain ⟨rfl, rfl⟩ := found
        exact ⟨0, 0, rfl, rfl, passes, by simp, fun _ => rfl⟩
      | false =>
        simp only [passes] at found
        obtain ⟨k, i, number, picks⟩ := ih found
        refine ⟨k + 1, i + 1, by omega, picks.cons (fun g same => ?_) fun _ => rfl⟩
        obtain rfl : es = g := by simpa using same
        exact passes

/-! ## The source of a decision node -/

/-- Where a source stands in a graph: its owner is the first regular node of the id that the
decision node's id names, its function the first map entry there with the name and a decision. -/
structure Place (id : String) (nodes : List Node) (s : Source) where
  owner : Nat
  name : String
  items : List Document
  index : Nat
  decision : Entries
  parts : Identifier.decisionParts? id = some (s.owner.id, name)
  owner_at : nodes[owner]? = some s.owner
  regular : s.owner.isDecision = false
  owner_first : ∀ j < owner, ∀ n, nodes[j]? = some n → n.id = s.owner.id → n.isDecision = true
  listed : s.owner.data.get "functions" = .list items
  picks : Picks (decides name) items s.index index s.function
  deciding : s.function.get "decision" = .map decision

/-- A decision found has its place among the functions of its owner. -/
theorem exists_place {id : String} {nodes : List Node} {s : Source}
    (found : findSource id nodes = .ok (some s)) : Nonempty (Place id nodes s) := by
  simp only [findSource] at found
  split at found
  case h_2 => cases found
  case h_1 ownerId name parts =>
    split at found
    case h_2 => cases found
    case h_1 owner first =>
      obtain ⟨functions, read, found⟩ := bind_eq_ok.1 found
      obtain ⟨items, elements, read⟩ := bind_eq_ok.1 read
      obtain rfl : Node.mapsOf items = functions := Except.ok.inj read
      obtain ⟨⟨f, k⟩, counted, rfl⟩ := Option.map_eq_some_iff.1 (Except.ok.inj found)
      obtain ⟨k', i, number, picks⟩ := exists_picks_of_find counted
      obtain rfl : k = k' := by omega
      have listed : owner.data.get "functions" = .list items :=
        eq_list_of_elementsOrNone elements (List.mem_of_getElem? picks.item)
      have isMap : (f.get "decision").isMap := (Bool.and_eq_true_iff.1 picks.passes).2
      obtain ⟨decision, deciding⟩ := Document.exists_of_isMap isMap
      obtain ⟨own, o, lt, at_o, earlier⟩ := List.find?_eq_some_iff_getElem.1 first
      simp only [Bool.and_eq_true, decide_eq_true_eq, Bool.not_eq_true'] at own
      obtain ⟨rfl, regular⟩ := own
      refine ⟨{
        owner := o, name, items, index := i, decision, parts, regular, listed, picks, deciding
        owner_at := by rw [List.getElem?_eq_getElem lt, at_o]
        owner_first := fun j before n at_j same => ?_ }⟩
      have other := earlier j before
      obtain ⟨_, at_j⟩ := List.getElem?_eq_some_iff.1 at_j
      rw [at_j] at other
      simpa [same] using other

theorem requireSource_eq_ok {id : String} {nodes : List Node} {s : Source} :
    requireSource id nodes = .ok s ↔ findSource id nodes = .ok (some s) := by
  unfold requireSource
  cases findSource id nodes with
  | error e => simp
  | ok found => cases found <;> simp

namespace Place

variable {id : String} {nodes : List Node} {s : Source} (l : Place id nodes s)

/-- The owner's data with a position in the decision of the source, all else as it is. -/
def data (p : Position) : Entries :=
  s.owner.data.put "functions" (.list (l.items.set l.index
    (.map (s.function.put "decision"
      (.map (l.decision.put "decision_node_position" p.document))))))

/-- The owner gets the data with the new position at that place. -/
theorem placedData_eq (p : Position) : s.placedData p = l.data p := by
  simp only [Source.placedData, data, l.listed, l.picks.change, placed, l.deciding]

/-- What a drag makes of a node. -/
def moved (p : Position) (n : Node) : Node :=
  if n.id = s.owner.id && !n.isDecision then { n with data := l.data p }
  else if n.id = id && n.isDecision then { n with position := p }
  else n

/-- A graph after a drag that changes nothing but positions: that in the source's decision, and
those of the decision nodes that are dragged. -/
structure OnlyMoves (p : Position) (after : List Node) : Prop where
  length : after.length = nodes.length
  owner : after[l.owner]? = some { s.owner with data := l.data p }
  dragged : ∀ (j : Nat) (n : Node), nodes[j]? = some n → n.id = id → n.isDecision = true →
    after[j]? = some { n with position := p }
  others : ∀ (j : Nat) (n : Node), nodes[j]? = some n → j ≠ l.owner →
    ¬(n.id = id ∧ n.isDecision = true) → after[j]? = some n

/-- No other regular node has the owner's id, unless its data are those that the owner gets. -/
def Alone (p : Position) : Prop :=
  ∀ (j : Nat) (n : Node), nodes[j]? = some n → j ≠ l.owner → n.id = s.owner.id →
    n.isDecision = false → n.data = l.data p

/-- The owner is moved with it. -/
theorem moved_owner (p : Position) : l.moved p s.owner = { s.owner with data := l.data p } := by
  simp [moved, l.regular]

theorem moved_of_dragged (p : Position) {n : Node} (same : n.id = id)
    (isDecision : n.isDecision = true) : l.moved p n = { n with position := p } := by
  simp [moved, same, isDecision]

/-- A node stays as it is unless it shares the id of the owner but not the data. -/
theorem moved_eq_self_iff (p : Position) {n : Node} (other : ¬(n.id = id ∧ n.isDecision = true)) :
    l.moved p n = n ↔ (n.id = s.owner.id → n.isDecision = false → n.data = l.data p) := by
  obtain ⟨i, kind, position, data, selected⟩ := n
  unfold moved
  split
  case isTrue own =>
    simp only [Bool.and_eq_true, decide_eq_true_eq, Bool.not_eq_true'] at own
    simp only [Node.mk.injEq, true_and, and_true, own.1, forall_const]
    exact ⟨fun h _ => h.symm, fun h => (h own.2).symm⟩
  case isFalse notOwn =>
    simp only [Bool.and_eq_true, decide_eq_true_eq, Bool.not_eq_true', not_and] at notOwn other
    simp only [Bool.and_eq_true, decide_eq_true_eq, not_and.2 other, if_false, true_iff]
    exact fun same regular => absurd regular (notOwn same)

/-- Exactly the graphs without twins of the owner keep all but the positions. -/
theorem onlyMoves_map_moved_iff (p : Position) :
    l.OnlyMoves p (nodes.map (l.moved p)) ↔ l.Alone p := by
  have at_map {j : Nat} {n m : Node} (at_j : nodes[j]? = some n) :
      (nodes.map (l.moved p))[j]? = some m ↔ l.moved p n = m := by
    simp [List.getElem?_map, at_j]
  constructor
  · intro only j n at_j ne same regular
    have notDragged : ¬(n.id = id ∧ n.isDecision = true) := by simp [regular]
    exact (l.moved_eq_self_iff p notDragged).1
      ((at_map at_j).1 (only.others j n at_j ne notDragged)) same regular
  · intro alone
    exact {
      length := List.length_map _
      owner := (at_map l.owner_at).2 (l.moved_owner p)
      dragged := fun j n at_j same isDecision =>
        (at_map at_j).2 (l.moved_of_dragged p same isDecision)
      others := fun j n at_j ne notDragged =>
        (at_map at_j).2 ((l.moved_eq_self_iff p notDragged).2 (alone j n at_j ne)) }

end Place

/-- Two numbers make an exact position. -/
theorem exactPosition_map {es : Entries} {x y : Document} {a b : Float}
    (hx : Entries.get? es "x" = some x) (hy : Entries.get? es "y" = some y)
    (ha : x.asFloat = .ok a) (hb : y.asFloat = .ok b) :
    exactPosition (.map es) = .ok ⟨a, b⟩ := by
  simp [exactPosition, hx, hy, ha, hb]

/-- Dragging moves node by node. -/
theorem drag_eq_map_moved {id : String} {nodes : List Node} {s : Source} (l : Place id nodes s)
    (found : findSource id nodes = .ok (some s)) {d : Document} {p : Position}
    (exact : exactPosition d = .ok p) : drag id d nodes = .ok (nodes.map (l.moved p)) := by
  simp only [drag, requireSource_eq_ok.2 found, exact, ok_bind, lift_ok, l.placedData_eq]
  rfl

/-- A drag with a source succeeds: every regular node of the owner's id gets the owner's data with
the position in the source's decision, the decision nodes of the id move, and all other nodes stay
as they are. So nothing but positions changes exactly if the owner has no twin with other data. -/
theorem drag_of_source {id : String} {nodes : List Node} {s : Source} {es : Entries}
    {x y : Document} {a b : Float} (found : findSource id nodes = .ok (some s))
    (hx : Entries.get? es "x" = some x) (hy : Entries.get? es "y" = some y)
    (ha : x.asFloat = .ok a) (hb : y.asFloat = .ok b) :
    ∃ l : Place id nodes s, drag id (.map es) nodes = .ok (nodes.map (l.moved ⟨a, b⟩)) ∧
      (l.OnlyMoves ⟨a, b⟩ (nodes.map (l.moved ⟨a, b⟩)) ↔ l.Alone ⟨a, b⟩) := by
  obtain ⟨l⟩ := exists_place found
  exact ⟨l, drag_eq_map_moved l found (exactPosition_map hx hy ha hb),
    l.onlyMoves_map_moved_iff _⟩

/-! ## A node with a twin -/

/-- A node with a decision. -/
def asker : Node where
  id := "ask"
  kind := "node"
  position := ⟨0.0, 0.0⟩
  data := [(.text "functions", .list [.object [
    ("name", .text "choose"), ("decision", .object [("action", .text "pass")])]])]

/-- The node and another of its id. -/
def namesakes : List Node := [asker,
  { asker with position := ⟨9.0, 9.0⟩, data := [(.text "label", .text "Ask again")] }]

def askerSource : Source where
  owner := asker
  index := 0
  function := [(.text "name", .text "choose"),
    (.text "decision", .object [("action", .text "pass")])]

theorem findSource_namesakes :
    findSource "decision-ask-choose" namesakes = .ok (some askerSource) := by
  have parts : Identifier.decisionParts? "decision-ask-choose" = some ("ask", "choose") := by
    decide +kernel
  simp [findSource, parts, namesakes, asker, askerSource, Node.isDecision, Node.decisionKind,
    Node.functions, Node.mapsOf, Entries.get, Document.object, Document.isMap, Document.alike,
    decides]

theorem drag_of_source_namesakes :
    findSource "decision-ask-choose" namesakes = .ok (some askerSource) ∧
    ∃ l : Place "decision-ask-choose" namesakes askerSource,
      drag "decision-ask-choose" (.object [("x", .float 1.0), ("y", .float 2.0)]) namesakes =
        .ok (namesakes.map (l.moved ⟨1.0, 2.0⟩)) ∧
      (l.OnlyMoves ⟨1.0, 2.0⟩ (namesakes.map (l.moved ⟨1.0, 2.0⟩)) ↔ l.Alone ⟨1.0, 2.0⟩) :=
  ⟨findSource_namesakes, drag_of_source findSource_namesakes rfl rfl rfl rfl⟩

/-- Dragging the decision node of the first changes more than positions: the other loses its
label. -/
theorem drag_namesakes : findSource "decision-ask-choose" namesakes = .ok (some askerSource) ∧
    ∃ after, drag "decision-ask-choose" (.object [("x", .float 1.0), ("y", .float 2.0)]) namesakes =
        .ok after ∧
      namesakes[1]?.map (fun n => n.data.get "label") = some (.text "Ask again") ∧
      after[1]?.map (fun n => n.data.get "label") = some .null ∧
      ∀ l : Place "decision-ask-choose" namesakes askerSource, ¬l.OnlyMoves ⟨1.0, 2.0⟩ after := by
  obtain ⟨l⟩ := exists_place findSource_namesakes
  have run : drag "decision-ask-choose" (.object [("x", .float 1.0), ("y", .float 2.0)]) namesakes =
      .ok (namesakes.map (l.moved ⟨1.0, 2.0⟩)) := drag_eq_map_moved l findSource_namesakes rfl
  have unlabelled : (namesakes.map (l.moved ⟨1.0, 2.0⟩))[1]?.map (fun n => n.data.get "label") =
      some .null := by
    simp [Place.moved, Place.data, namesakes, asker, askerSource, Node.isDecision,
      Node.decisionKind, Entries.get, Entries.get?_put]
  refine ⟨findSource_namesakes, _, run, rfl, unlabelled, fun l' only => ?_⟩
  have ne : 1 ≠ l'.owner := by
    intro same
    have decides := l'.owner_first 0 (by omega) asker rfl rfl
    simp [asker, Node.isDecision, Node.decisionKind] at decides
  have kept := only.others 1 _ rfl ne (by simp [asker])
  rw [kept] at unlabelled
  cases unlabelled

end Dialogue.Graph
