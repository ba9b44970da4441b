import Dialogue.Proofs.Flow.Reread
import Dialogue.Proofs.Graph.EdgeIds
import Dialogue.Proofs.Graph.Reconcile

/-!
# Refreshing a graph again

What refreshing gives is left as it is when it is refreshed again, and nothing counts as changed
unless edges with one id differ in their routes: the last of these is then held against all of them.
In the graph of a flow that takes two decisions of one name at one node, whose conditions at one
place lead to one target by different tests.
-/

namespace Dialogue

namespace Graph

/-! ## Edges again -/

/-- Every edge has the route of the last one with its id. -/
def Coherent (edges : List Edge) : Prop :=
  ∀ e ∈ edges, ∃ last, edgeById? edges e.id = some last ∧ last.sameRoute e

/-- Edges agree with themselves just when they are coherent. -/
theorem agree_self_iff {edges : List Edge} : agree edges edges ↔ Coherent edges := by
  have ids : edges.all (fun e => edges.any (·.id = e.id)) := by
    rw [List.all_eq_true]
    exact fun e member => List.any_eq_true.2 ⟨e, member, by simp⟩
  simp [agree, ids, Coherent, Option.any_eq_true]

/-- A map that keeps ids finds the image of the edge. -/
theorem edgeById?_map {f : Edge → Edge} (keeps : ∀ e, (f e).id = e.id) (edges : List Edge)
    (id : String) : edgeById? (edges.map f) id = (edgeById? edges id).map f := by
  simp [edgeById?, ← List.map_reverse, List.find?_map, keeps]

theorem edgeById?_eq_some {edges : List Edge} {id : String} {e : Edge}
    (found : edgeById? edges id = some e) : e ∈ edges ∧ e.id = id :=
  ⟨List.mem_reverse.1 (List.mem_of_find?_eq_some found), by simpa using List.find?_some found⟩

theorem exists_edgeById? {edges : List Edge} {e : Edge} (member : e ∈ edges) :
    ∃ last, edgeById? edges e.id = some last := by
  rw [← Option.isSome_iff_exists, edgeById?, List.find?_isSome]
  exact ⟨e, List.mem_reverse.2 member, by simp⟩

@[simp] theorem id_reselect (current : List Edge) (e : Edge) : (reselect current e).id = e.id := rfl

/-- Selection does not matter to whether edges agree. -/
theorem agree_reselected (current derived : List Edge) :
    agree (derived.map (reselect current)) derived = agree derived derived := by
  have routes (e : Edge) : ((edgeById? derived e.id).map (reselect current)).any (·.sameRoute e) =
      (edgeById? derived e.id).any (·.sameRoute e) := by
    cases edgeById? derived e.id <;> rfl
  simp only [agree, List.length_map, List.all_map, edgeById?_map (id_reselect current), routes]
  rfl

/-- Edges that have got their selection get the same again. -/
theorem reselect_reselected (current derived : List Edge) :
    derived.map (reselect (derived.map (reselect current))) = derived.map (reselect current) := by
  refine List.map_congr_left fun e member => ?_
  obtain ⟨last, found⟩ := exists_edgeById? member
  have id := (edgeById?_eq_some found).2
  simp [reselect, edgeById?_map (id_reselect current), found, id]

/-- Nothing is selected where nothing was. -/
theorem reselect_unselected {edges : List Edge} (unselected : ∀ e ∈ edges, e.selected = false) :
    edges.map (reselect edges) = edges := by
  have keeps (e : Edge) (member : e ∈ edges) : reselect edges e = e := by
    obtain ⟨last, found⟩ := exists_edgeById? member
    rw [reselect, found, Option.any_some, unselected last (edgeById?_eq_some found).1,
      ← unselected e member]
  rw [List.map_congr_left keeps, List.map_id']

/-- The edges to show stay, changed unless they agreed at once or agree with themselves. -/
theorem reconcileEdges_again (current derived : List Edge) :
    reconcileEdges (reconcileEdges current derived).2 derived =
      (!(agree current derived || agree derived derived), (reconcileEdges current derived).2) := by
  cases first : agree current derived with
  | true => simp [reconcileEdges, first]
  | false =>
    cases self : agree derived derived <;>
      simp [reconcileEdges, first, agree_reselected, reselect_reselected, self]

/-- Reconciling with the same edges gives them back, but may report a change. -/
theorem reconcileEdges_self {edges : List Edge} (unselected : ∀ e ∈ edges, e.selected = false) :
    reconcileEdges edges edges = (!agree edges edges, edges) := by
  cases h : agree edges edges <;> simp [reconcileEdges, h, reselect_unselected unselected]

/-- A refresh settles the nodes, derives their edges and takes over the selection. -/
theorem refresh_eq_ok {settings : Settings} {nodes : List Node} {edges : List Edge}
    {out : List Node × List Edge × Bool} :
    refresh settings nodes edges = .ok out ↔ ∃ r derived, reconcile settings nodes = .ok r ∧
      deriveEdges r.nodes = .ok derived ∧
      (r.nodes, (reconcileEdges edges derived).2, r.changed || (reconcileEdges edges derived).1) =
        out := by
  simp only [refresh]
  cases h : reconcile settings nodes with
  | error e => simp
  | ok r => cases derives : deriveEdges r.nodes <;> simp [derives]

/-- A second refresh gives the same, and reports a change unless the edges agree. -/
theorem refresh_again {settings : Settings} {nodes nodes' : List Node} {edges edges' : List Edge}
    {changed : Bool} (h : refresh settings nodes edges = .ok (nodes', edges', changed))
    (defined : ∀ n ∈ nodes, (Document.map n.data).Defined) :
    ∃ derived, deriveEdges nodes' = .ok derived ∧ ∀ settings',
      refresh settings' nodes' edges' =
        .ok (nodes', edges', !(agree edges derived || agree derived derived)) := by
  obtain ⟨r, derived, reconciled, derives, same⟩ := refresh_eq_ok.1 h
  obtain ⟨rfl, rfl, -⟩ : r.nodes = nodes' ∧ (reconcileEdges edges derived).2 = edges' ∧ _ := by
    simpa only [Prod.mk.injEq] using same
  obtain ⟨-, -, -, -, settled⟩ := reconcile_exact reconciled defined
  refine ⟨derived, derives, fun settings' => ?_⟩
  refine refresh_eq_ok.2 ⟨_, derived, settled settings', derives, ?_⟩
  rw [reconcileEdges_again]
  rfl

/-- The label that goes with a way, unless it shows the test of a condition. -/
def Way.label (name : String) : Way → Document
  | .handover => .null
  | .onward _ => .text "default"
  | .direct _ => .text name

end Graph

/-! ## Edges of one id in a flow's graph -/

open Dialogue.Graph (Way Exit EdgeKey Edge Coherent edgeById? edgeById?_eq_some exists_edgeById?)

namespace NodeFunction

variable {f : NodeFunction} {w : Way} {l : Document}

/-- The ways of a condition are numbered by its place. -/
theorem mem_ways_condition {i : Nat} {t : String} :
    (.onward (.condition i t), l) ∈ f.ways ↔ ∃ d, f.decision = some d ∧
      ∃ c, d.conditions[i]? = some c ∧ c.target = t ∧ .text c.label = l := by
  cases h : f.decision with
  | none => simp [ways, h]
  | some d => simp [ways, h, Decision.exits, List.mem_zipIdx_iff_getElem?]

/-- All other ways have labels of their own kind. -/
theorem eq_label_of_mem_ways (member : (w, l) ∈ f.ways)
    (other : ∀ i t, w ≠ .onward (.condition i t)) : l = w.label f.name := by
  cases h : f.decision with
  | none =>
    obtain ⟨t, -, rfl, rfl⟩ :
        ∃ t, f.directTarget? = some t ∧ Way.direct t = w ∧ .text f.name = l := by
      simpa [ways, h] using member
    rfl
  | some d =>
    simp only [ways, h, Decision.exits, List.map_append, List.mem_cons, List.mem_append,
      List.mem_map, Prod.mk.injEq, List.not_mem_nil, or_false] at member
    rcases member with ⟨rfl, rfl⟩ | ⟨e, ⟨c, -, rfl⟩, rfl, rfl⟩ | ⟨e, rfl, rfl, rfl⟩
    · rfl
    · exact absurd rfl (other _ _)
    · rfl

theorem defined_of_mem_ways (member : (w, l) ∈ f.ways) : l.Defined := by
  cases w with
  | onward e =>
    cases e with
    | condition i t =>
      obtain ⟨d, -, c, -, -, rfl⟩ := mem_ways_condition.1 member
      trivial
    | fallback t =>
      rw [eq_label_of_mem_ways member (by simp)]
      trivial
  | _ =>
    rw [eq_label_of_mem_ways member (by simp)]
    trivial

end NodeFunction

namespace Flow

/-- Two decisions of one name at one node test alike wherever conditions at one place have one
target. -/
def TestsAlike (f : Flow) : Prop :=
  ∀ n ∈ f.nodes, ∀ m ∈ f.nodes, n.id = m.id →
    ∀ g ∈ n.data.functionList, ∀ h ∈ m.data.functionList, g.name = h.name →
      ∀ d e, g.decision = some d → h.decision = some e →
        ∀ (i : Nat) (c c' : Condition), d.conditions[i]? = some c → e.conditions[i]? = some c' →
          c.target = c'.target → c.label = c'.label

/-- The edges of a flow are those of all ways of its functions. -/
theorem mem_graphEdges {f : Flow} {e : Edge} : e ∈ f.nodes.flatMap FlowNode.graphEdges ↔
    ∃ n ∈ f.nodes, ∃ g ∈ n.data.functionList, ∃ w l, (w, l) ∈ g.ways ∧
      EdgeKey.edge ⟨n.id, g.name, w⟩ l = e := by
  simp [FlowNode.graphEdges, NodeFunction.graphEdges]

/-- Where functions of one name test alike, edges of one id have one label. -/
theorem TestsAlike.labels {f : Flow} (alike : f.TestsAlike) {n m : FlowNode} (hn : n ∈ f.nodes)
    (hm : m ∈ f.nodes) (ids : n.id = m.id) {g h : NodeFunction} (hg : g ∈ n.data.functionList)
    (hh : h ∈ m.data.functionList) (names : g.name = h.name) {w : Way} {l l' : Document}
    (way : (w, l) ∈ g.ways) (way' : (w, l') ∈ h.ways) : l = l' := by
  by_cases condition : ∃ i t, w = .onward (.condition i t)
  · obtain ⟨i, t, rfl⟩ := condition
    obtain ⟨d, decided, c, stands, target, rfl⟩ := NodeFunction.mem_ways_condition.1 way
    obtain ⟨e, decided', c', stands', target', rfl⟩ := NodeFunction.mem_ways_condition.1 way'
    rw [alike n hn m hm ids g hg h hh names d e decided decided' i c c' stands stands'
      (target.trans target'.symm)]
  · have other : ∀ i t, w ≠ .onward (.condition i t) := fun i t same => condition ⟨i, t, same⟩
    rw [NodeFunction.eq_label_of_mem_ways way other, NodeFunction.eq_label_of_mem_ways way' other,
      names]

/-- So the edges of a flow are coherent just when its tests are alike. -/
theorem coherent_iff_testsAlike {f : Flow} (lawful : f.Lawful) :
    Coherent (f.nodes.flatMap FlowNode.graphEdges) ↔ f.TestsAlike := by
  constructor
  · intro coherent n hn m hm ids g hg h hh names d e decided decided' i c c' stands stands' targets
    have edge := mem_graphEdges.2 ⟨n, hn, g, hg, _, _,
      NodeFunction.mem_ways_condition.2 ⟨d, decided, c, stands, rfl, rfl⟩, rfl⟩
    have edge' := mem_graphEdges.2 ⟨m, hm, h, hh, _, _,
      NodeFunction.mem_ways_condition.2 ⟨e, decided', c', stands', rfl, rfl⟩, rfl⟩
    obtain ⟨last, found, route⟩ := coherent _ edge
    obtain ⟨last', found', route'⟩ := coherent _ edge'
    -- Both edges have one id, so both are held against the same last edge.
    rw [ids, names, targets] at found
    obtain rfl := Option.some.inj (found.symm.trans found')
    simp only [Edge.sameRoute, EdgeKey.edge, Bool.and_eq_true] at route route'
    have label := Document.isText_iff.1 route.2
    have label' := Document.isText_iff.1 route'.2
    simpa using label.symm.trans label'
  · intro alike e member
    obtain ⟨last, found⟩ := exists_edgeById? member
    refine ⟨last, found, ?_⟩
    obtain ⟨there, ids⟩ := edgeById?_eq_some found
    obtain ⟨n, hn, g, hg, w, l, way, rfl⟩ := mem_graphEdges.1 member
    obtain ⟨m, hm, h, hh, w', l', way', rfl⟩ := mem_graphEdges.1 there
    have plain {n : FlowNode} (there : n ∈ f.nodes) {g : NodeFunction}
        (called : g ∈ n.data.functionList) (w : Way) : EdgeKey.HyphenFree ⟨n.id, g.name, w⟩ :=
      ⟨Identifier.hyphenFree_of_isIdentifier (lawful.nodes n there).id,
        Identifier.hyphenFree_of_isIdentifier ((lawful.nodes n there).names g called)⟩
    have keys := EdgeKey.id_inj (plain hm hh w') (plain hn hg w) ids
    obtain ⟨owners, names, rfl⟩ := EdgeKey.mk.inj keys
    obtain rfl := alike.labels hm hn owners hh hg names way' way
    rw [keys]
    have self (d : Document) (defined : d.Defined) : d.alike d :=
      Document.alike_of_same (Document.same_refl d) defined
    simp only [Edge.sameRoute, EdgeKey.edge, Bool.and_eq_true]
    exact ⟨⟨self _ trivial, self _ trivial⟩, self _ (NodeFunction.defined_of_mem_ways way)⟩

/-- Where ids and names differ, no two decisions are of one name at one node. -/
theorem testsAlike_of_nodup {f : Flow} (ids : f.ids.Nodup)
    (names : ∀ n ∈ f.nodes, (n.data.functionList.map (·.name)).Nodup) : f.TestsAlike := by
  intro n hn m hm same g hg h hh called d e decided decided' i c c' stands stands' _
  obtain rfl : n = m := List.inj_on_of_nodup_map ids hn hm same
  obtain rfl : g = h := List.inj_on_of_nodup_map (names n hn) hg hh called
  obtain rfl := Option.some.inj (decided.symm.trans decided')
  rw [Option.some.inj (stands.symm.trans stands')]

/-- Normalizing leaves the tests alone. -/
theorem testsAlike_normalize {f : Flow} : f.normalize.TestsAlike ↔ f.TestsAlike := by
  simp [TestsAlike, normalize, FlowNode.withRole]

/-- The data of the nodes of a graph are those that the document holds. -/
theorem defined_ofNodes {f : Flow} (defined : f.document.Defined) :
    ∀ n ∈ f.nodes.map Graph.Node.ofNode, (Document.map n.data).Defined := by
  intro n member
  obtain ⟨m, there, rfl⟩ := List.mem_map.1 member
  have items : (Document.listOf FlowNode.document f.nodes).Defined := by
    rw [← f.get_nodes]
    exact Document.defined_get defined.2 "nodes"
  have node : m.document.Defined := Document.defined_of_mem_items items (List.mem_map_of_mem there)
  have data := Document.defined_get node.2 "data"
  exact data

theorem defined_sample : sample.normalize.document.Defined := by
  have zero : (0.0 : Float) ≠ Float.nan := by decide
  have low : (300.0 : Float) ≠ Float.nan := by decide
  simp [sample, normalize, FlowNode.withRole, document, fields, Document.record, Meta.document,
    Document.listOf, FlowNode.document, Position.document, NodeData.document, NodeData.fields,
    Message.document, NodeFunction.document, NodeFunction.fields, Signature.fields,
    Decision.document, Decision.fields, Condition.document, FlowNode.directEdges,
    NodeData.functionList, NodeFunction.directEdge?, NodeFunction.directTarget?, Document.object,
    Document.Defined, Document.DefinedEntries, Document.DefinedItems, Scalar.Defined, Scalar.alike,
    Scalar.wholeValue?, zero, low]

end Flow

namespace Graph

/-- The graph of a document is refreshed to itself, and its edges count as changed where decisions
of one name at one node test differently. -/
theorem refresh_ofFlow {f : Flow} (lawful : f.Lawful) (defined : f.document.Defined)
    (settings : Settings) : ∃ nodes edges, ofFlow settings f.document = .ok (nodes, edges) ∧
      ∀ settings', ∃ again, refresh settings' nodes edges = .ok (nodes, edges, again) ∧
        (again = false ↔ f.TestsAlike) := by
  obtain ⟨nodes, expands, ⟨r, reconciled, rfl⟩, derives⟩ := graphEdges_of_ofFlow lawful
  obtain ⟨-, -, -, -, settled⟩ := reconcile_exact reconciled (Flow.defined_ofNodes defined)
  have unselected : ∀ e ∈ f.nodes.flatMap FlowNode.graphEdges, e.selected = false := by
    intro e member
    obtain ⟨n, -, g, -, w, l, -, rfl⟩ := Flow.mem_graphEdges.1 member
    rfl
  have criterion := Flow.coherent_iff_testsAlike lawful
  generalize f.nodes.flatMap FlowNode.graphEdges = edges at expands derives unselected criterion
  have again (settings' : Settings) :
      refresh settings' r.nodes edges = .ok (r.nodes, edges, !agree edges edges) := by
    refine refresh_eq_ok.2 ⟨_, _, settled settings', derives, ?_⟩
    rw [reconcileEdges_self unselected]
    rfl
  refine ⟨_, _, expands, fun settings' => ⟨_, again settings', ?_⟩⟩
  rw [Bool.not_eq_false', agree_self_iff, criterion]

/-- A second time refreshing leaves all nodes and edges as they are. It counts nothing as changed
just when the edges agreed at first or edges of one id have one route; in the graph of an accepted
flow, when no two decisions of one name at one node test differently. -/
theorem refresh_twice (settings settings' : Settings) :
    (∀ {nodes edges nodes' edges' changed},
      refresh settings nodes edges = .ok (nodes', edges', changed) →
      (∀ n ∈ nodes, (Document.map n.data).Defined) →
      ∃ derived again, deriveEdges nodes' = .ok derived ∧
        refresh settings' nodes' edges' = .ok (nodes', edges', again) ∧
        (again = false ↔ agree edges derived ∨ Coherent derived)) ∧
    ∀ {d f}, Flow.check d = .ok f → f.normalize.document.Defined → ∃ nodes edges again,
      ofFlow settings f.normalize.document = .ok (nodes, edges) ∧
        refresh settings' nodes edges = .ok (nodes, edges, again) ∧
        (again = false ↔ f.TestsAlike) ∧
        (f.ids.Nodup → (∀ n ∈ f.nodes, (n.data.functionList.map (·.name)).Nodup) →
          f.TestsAlike) := by
  constructor
  · intro nodes edges nodes' edges' changed run defined
    obtain ⟨derived, derives, again⟩ := refresh_again run defined
    refine ⟨derived, _, derives, again settings', ?_⟩
    rw [Bool.not_eq_false', Bool.or_eq_true, agree_self_iff]
  · intro d f accepted defined
    have lawful := (Flow.shownIn_of_check accepted).2
    obtain ⟨nodes, edges, expands, again⟩ := refresh_ofFlow lawful.normalize defined settings
    obtain ⟨changed, run, criterion⟩ := again settings'
    rw [Flow.testsAlike_normalize] at criterion
    exact ⟨nodes, edges, changed, expands, run, criterion, Flow.testsAlike_of_nodup⟩

theorem refresh_twice_sample :
    (∃ nodes edges changed derived again, refresh {} unsettled [] = .ok (nodes, edges, changed) ∧
      deriveEdges nodes = .ok derived ∧ refresh {} nodes edges = .ok (nodes, edges, again) ∧
        (again = false ↔ agree [] derived ∨ Coherent derived)) ∧
    ∃ nodes edges again, ofFlow {} Flow.sample.normalize.document = .ok (nodes, edges) ∧
      refresh {} nodes edges = .ok (nodes, edges, again) ∧
        (again = false ↔ Flow.sample.TestsAlike) := by
  have defined : ∀ n ∈ unsettled, (Document.map n.data).Defined := by
    simp [unsettled, Document.Defined, Document.DefinedEntries, Document.DefinedItems,
      Scalar.Defined, Document.object, Scalar.alike, Scalar.wholeValue?]
  obtain ⟨⟨nodes, edges, changed⟩, run⟩ : ∃ out, refresh {} unsettled [] = .ok out := ⟨_, rfl⟩
  obtain ⟨derived, again, derives, rerun, criterion⟩ := (refresh_twice {} {}).1 run defined
  obtain ⟨nodes', edges', again', expands, refreshed, settled, -⟩ :=
    (refresh_twice {} {}).2 Flow.check_sample Flow.defined_sample
  exact ⟨⟨nodes, edges, changed, derived, again, run, derives, rerun, criterion⟩,
    nodes', edges', again', expands, refreshed, settled⟩

/-- A node with two functions of one name; one tests for less where the other tests for more. -/
def twins : Flow :=
  let deciding (operator : Operator) : NodeFunction :=
    { name := "choose"
      description := ""
      decision := some {
        action := "result = 1"
        conditions := [⟨operator, "1", "greet"⟩]
        fallback := "greet" } }
  { info := { name := "Twins", version := "1.0.0" }
    nodes := [{
      id := "greet"
      role := .plain
      position := ⟨0.0, 0.0⟩
      data := { functions := some [deciding .less, deciding .greater] } }]
    edges := [] }

/-- The graph of an accepted flow counts as changed as often as it is refreshed. -/
theorem twins_unsettled : Flow.check twins.document = .ok twins ∧ ∃ nodes edges,
    ofFlow {} twins.normalize.document = .ok (nodes, edges) ∧
      refresh {} nodes edges = .ok (nodes, edges, true) :=
  ⟨rfl, _, _, rfl, rfl⟩

end Graph
end Dialogue
