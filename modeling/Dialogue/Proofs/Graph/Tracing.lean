import Dialogue.Proofs.Flow.DecisionId
import Dialogue.Proofs.Graph.Calm
import Dialogue.Proofs.Graph.Dragging
import Dialogue.Proofs.Graph.Routes

/-!
# From a decision node to its function

Once a graph is reconciled, every decision node leads back to the function it stands for, which is
found by the node's id alone. The node can be dragged: its new position stays with that function, so
reconciling finds nothing to do afterwards.
-/

namespace Dialogue.Graph

/-- Ids and names that can be told apart and read off the ids of decision nodes. -/
structure Traceable (ns : List Node) : Prop where
  nodup : ((regular ns).map (·.id)).Nodup
  id_free : ∀ n ∈ regular ns, Identifier.HyphenFree n.id
  id_feed : ∀ n ∈ regular ns, '\n' ∉ n.id.toList
  id_ne_empty : ∀ n ∈ regular ns, n.id ≠ ""
  names : ∀ n ∈ regular ns, ∀ fs, n.functions = .ok fs → ∃ names : List String,
    fs.map (·.get "name") = names.map .text ∧ names.Nodup ∧
      ∀ name ∈ names, name ≠ "" ∧ '\n' ∉ name.toList

variable {settings : Settings} {ns : List Node}

theorem Traceable.of_regular {ns' : List Node} (traceable : Traceable ns)
    (same : regular ns' = regular ns) : Traceable ns' := by
  obtain ⟨nodup, free, feed, ne_empty, names⟩ := traceable
  rw [← same] at nodup free feed ne_empty names
  exact ⟨nodup, free, feed, ne_empty, names⟩

theorem decides_iff {name : String} {f : Entries} :
    decides name f ↔ f.get "name" = .text name ∧ (f.get "decision").isMap := by
  rw [decides, Bool.and_eq_true, ← Document.isText_iff]
  rfl

/-! ## Back to the function -/

/-- The owner of a decision is found by its id. -/
theorem find?_owner (traceable : Traceable ns) {n : Node} (member : n ∈ regular ns) :
    ns.find? (fun m => m.id = n.id && !m.isDecision) = some n := by
  obtain ⟨there, notDecision⟩ := mem_regular.1 member
  refine find?_of_unique there (by simp [notDecision]) fun m found same => ?_
  simp only [Bool.and_eq_true, decide_eq_true_eq, Bool.not_eq_true'] at same
  exact List.inj_on_of_nodup_map traceable.nodup (mem_regular.2 ⟨found, same.2⟩) member same.1

/-- The function of a name is found among functions of different names. -/
theorem exists_find?_decides {fs : List Entries} (nodup : (fs.map (·.get "name")).Nodup)
    {f : Entries} (member : f ∈ fs) {name : String} (decided : decides name f) :
    ∃ k, fs.zipIdx.find? (fun g => decides name g.1) = some (f, k) := by
  obtain ⟨i, at_i⟩ := List.mem_iff_getElem?.1 member
  have there : (f, i) ∈ fs.zipIdx := by simpa [List.mk_mem_zipIdx_iff_getElem?] using at_i
  cases found : fs.zipIdx.find? (fun g => decides name g.1) with
  | none => exact absurd decided (List.find?_eq_none.1 found _ there)
  | some g =>
    obtain ⟨g, k⟩ := g
    have other : g ∈ fs := List.fst_mem_of_mem_zipIdx (List.mem_of_find?_eq_some found)
    have passes : decides name g := by simpa using List.find?_some found
    have named : g.get "name" = f.get "name" :=
      (decides_iff.1 passes).1.trans (decides_iff.1 decided).1.symm
    exact ⟨k, by rw [List.inj_on_of_nodup_map nodup other member named]⟩

/-- The function that a decision node stands for is found by the node's id. -/
theorem exists_source (traceable : Traceable ns) {o : Owned} (among : o.Among ns) :
    ∃ name k, o.name = .text name ∧ Identifier.decisionId o.owner.id name = o.id ∧
      findSource o.id ns = .ok (some ⟨o.owner, k, o.function⟩) := by
  have member := among.owner_mem
  obtain ⟨fs, functions, called⟩ := among.function
  obtain ⟨names, same, distinct, read⟩ := traceable.names o.owner member fs functions
  have nodup : (fs.map (·.get "name")).Nodup := by
    rw [same]
    exact distinct.map fun _ _ h => by simpa using h
  obtain ⟨name, there, named⟩ : ∃ name ∈ names, .text name = o.name :=
    List.mem_map.1 (same ▸ List.mem_map_of_mem called)
  obtain ⟨ne_empty, feed⟩ := read name there
  have id : Identifier.decisionId o.owner.id name = o.id := by
    rw [Owned.id, ← named, decisionIdOf_text]
  have parts : Identifier.decisionParts? o.id = some (o.owner.id, name) := by
    rw [← id]
    exact Identifier.decisionParts?_decisionId (.of_hyphenFree (traceable.id_free _ member)
      (traceable.id_ne_empty _ member) (traceable.id_feed _ member) feed ne_empty)
  have decided : decides name o.function := by
    rw [decides_iff, among.decision]
    exact ⟨named.symm, rfl⟩
  obtain ⟨k, found⟩ := exists_find?_decides nodup called decided
  refine ⟨name, k, named.symm, id, ?_⟩
  simp [findSource, parts, find?_owner traceable member, functions, found]

/-- The function that a decision node leads back to is the one whose summary it shows. -/
structure Traced (ns : List Node) (d : Node) (s : Source) : Prop where
  found : findSource d.id ns = .ok (some s)
  id : ∃ name, s.function.get "name" = .text name ∧
    Identifier.decisionId s.owner.id name = d.id
  shown : ∃ decision summary, s.function.get "decision" = .map decision ∧
    Owned.summary ⟨s.owner, s.function, decision⟩ = .ok summary ∧
    ∀ key ∈ summaryKeys, (d.data.get key).alike (summary.get key)

/-- On a calm canvas every decision node is traced to its function. -/
theorem exists_traced {calls : List Owned} (calm : Calm calls ns) (traceable : Traceable ns)
    {d : Node} (member : d ∈ ns) (decision : d.isDecision) : ∃ s, Traced ns d s := by
  obtain ⟨o, summary, last, made, current⟩ := calm.shows d member decision
  obtain ⟨called, id⟩ := lastCall?_eq_some last
  have among := calm.mem_calls.1 called
  obtain ⟨name, k, named, put, found⟩ := exists_source traceable among
  rw [id] at put found
  exact ⟨_, found, ⟨name, named, put⟩, o.decision, summary, among.decision, made,
    (isStale_eq_false_iff made).1 current⟩

/-! ## Dragging -/

/-- The `k`th map entry of a list changed is the `k`th of its maps changed. -/
theorem mapsOf_changeNth (change : Entries → Entries) (k : Nat) (ds : List Document) :
    Node.mapsOf (changeNth change k ds) = (Node.mapsOf ds).modify k change := by
  induction ds generalizing k with
  | nil => cases k <;> rfl
  | cons d ds ih =>
    cases isMap : d.isMap with
    | false =>
      rw [changeNth_cons_of_not_map isMap, mapsOf_cons_of_not_map isMap,
        mapsOf_cons_of_not_map isMap, ih]
    | true =>
      obtain ⟨es, rfl⟩ := Document.exists_of_isMap isMap
      cases k with
      | zero => rfl
      | succ k =>
        simp only [changeNth, mapsOf_cons_map, List.modify_succ_cons, ih]

/-- A change of one place relates each item to the changed one. -/
theorem forall₂_modify {α : Type} {R : α → α → Prop} {change : α → α} (same : ∀ a, R a a)
    (changed : ∀ a, R a (change a)) (k : Nat) (as : List α) :
    List.Forall₂ R as (as.modify k change) := by
  induction as generalizing k with
  | nil => simp
  | cons a as ih =>
    cases k with
    | zero => exact .cons (changed a) (List.forall₂_same.2 fun a _ => same a)
    | succ k => exact .cons (same a) (ih k)

/-- A function with another position owns a decision that is alike. -/
theorem alike_placed {n m : Node} (id : m.id = n.id) (p : Position) (f : Entries) :
    Option.Rel Owned.Alike (ownedOf? n f) (ownedOf? m (placed p f)) := by
  cases decided : f.get "decision" with
  | map d =>
    have name : (f.put "decision" (.map (Entries.put d "decision_node_position" p.document))).get
        "name" = f.get "name" := by simp [Entries.get_put]
    simp only [placed, ownedOf?, decided, Entries.get_put_self, name]
    split
    case isFalse => exact .none
    case isTrue => exact .some (Owned.alike_position id p f d)
  | _ =>
    simp only [placed, ownedOf?, decided]
    exact .none

theorem alike_unplaced {n m : Node} (id : m.id = n.id) (f : Entries) :
    Option.Rel Owned.Alike (ownedOf? n f) (ownedOf? m f) := by
  unfold ownedOf?
  split
  · split
    · exact .some ⟨by simp only [Owned.id, Owned.name, id], by simp [Owned.summary, Owned.name, id]⟩
    · exact .none
  · exact .none

/-- The owner's functions are those that it had, one of them placed. -/
theorem functions_placed {id : String} {s : Source} (l : Place id ns s) (p : Position)
    {fs : List Entries} (functions : s.owner.functions = .ok fs) :
    Node.functions { s.owner with data := l.data p } = .ok (fs.modify s.index (placed p)) := by
  simp only [Node.functions, l.listed, Document.elementsOrNone_list, ok_bind, pure_eq_ok,
    Except.ok.injEq] at functions
  subst functions
  simp [Node.functions, ← l.placedData_eq, Source.placedData, l.listed, mapsOf_changeNth]

/-- The owner and the dragged nodes call for what they called for, and show what they showed. -/
theorem alike_moved {id : String} {s : Source} (l : Place id ns s) (p : Position)
    (alone : ∀ n ∈ ns, n.isDecision = false → n.id = s.owner.id → n = s.owner)
    {n : Node} (member : n ∈ ns) : n.Alike (l.moved p n) := by
  by_cases own : n.id = s.owner.id ∧ n.isDecision = false
  · obtain rfl := alone n member own.2 own.1
    rw [l.moved_owner]
    refine ⟨rfl, rfl, .of_functions rfl fun _ fs functions =>
      ⟨_, functions_placed l p functions, ?_⟩, fun decision => ?_⟩
    · exact forall₂_modify (fun f => by apply alike_unplaced; rfl)
        (fun f => by apply alike_placed; rfl) s.index fs
    · exact absurd (own.2.symm.trans decision) (by decide)
  · have other : (n.id = s.owner.id && !n.isDecision) = false := by simpa using own
    rw [Place.moved, other, if_neg (by decide)]
    split
    case isTrue dragged =>
      have decision : n.isDecision := (Bool.and_eq_true_iff.1 dragged).2
      exact Node.alike_of_isDecision decision rfl rfl rfl
    case isFalse => exact .refl n

/-- Where ids differ, no other node is taken for the owner. -/
theorem alone_of_nodup {id : String} {s : Source} (l : Place id ns s)
    (nodup : ((regular ns).map (·.id)).Nodup) (p : Position) : l.Alone p := by
  have apart : ns.Pairwise fun n m =>
      n.isDecision = false → m.isDecision = false → n.id ≠ m.id := by
    simpa [regular, List.Nodup, List.pairwise_map, List.pairwise_filter] using nodup
  rw [List.pairwise_iff_getElem] at apart
  obtain ⟨owner_lt, at_owner⟩ := List.getElem?_eq_some_iff.1 l.owner_at
  intro j n at_j ne same notDecision
  obtain ⟨lt, rfl⟩ := List.getElem?_eq_some_iff.1 at_j
  have regular := l.regular
  rw [← at_owner] at same regular
  rcases Nat.lt_or_gt_of_ne ne with before | after
  · exact absurd same (apart j l.owner lt owner_lt before notDecision regular)
  · exact absurd same.symm (apart l.owner j owner_lt lt after regular notDecision)

/-- So the canvas stays calm when a decision is dragged. -/
theorem calm_of_drag {calls : List Owned} (calm : Calm calls ns) (traceable : Traceable ns)
    {id : String} {s : Source} (l : Place id ns s) (p : Position) :
    ∃ calls', Calm calls' (ns.map (l.moved p)) := by
  refine calm.of_alike (List.forall₂_map_right_iff.2 (List.forall₂_same.2 fun n member => ?_))
  refine alike_moved l p (fun m there notDecision same => ?_) member
  have owner : s.owner ∈ regular ns := mem_regular.2 ⟨List.mem_of_getElem? l.owner_at, l.regular⟩
  exact List.inj_on_of_nodup_map traceable.nodup (mem_regular.2 ⟨there, notDecision⟩) owner same

/-! ## Reconciled graphs -/

/-- Every decision node of a reconciled graph leads back to the function whose summary it shows.
Dragging it succeeds, moves nothing but it and what its function keeps of its position, and leaves
nothing to reconcile. -/
theorem reconcile_traced {r : Reconciled} (reconciled : reconcile settings ns = .ok r)
    (defined : ∀ n ∈ ns, (Document.map n.data).Defined) (traceable : Traceable ns) {d : Node}
    (member : d ∈ r.nodes) (decision : d.isDecision) :
    ∃ s, Traced r.nodes d s ∧ ∀ (es : Entries) (x y : Document) (a b : Float),
      es.get? "x" = some x → es.get? "y" = some y → x.asFloat = .ok a → y.asFloat = .ok b →
      ∃ (l : Place d.id r.nodes s) (after : List Node),
        drag d.id (.map es) r.nodes = .ok after ∧ l.OnlyMoves ⟨a, b⟩ after ∧
        ∀ settings', reconcile settings' after = .ok { nodes := after } := by
  obtain ⟨calls, calling, exact⟩ := exact_of_reconcile reconciled defined
  obtain ⟨calls, calm⟩ := calm_of_reconcile (exact.reconcile_nodes calling settings) rfl
  have traceable := traceable.of_regular exact.regular
  obtain ⟨s, traced⟩ := exists_traced calm traceable member decision
  refine ⟨s, traced, fun es x y a b hx hy ha hb => ?_⟩
  obtain ⟨l⟩ := exists_place traced.found
  obtain ⟨calls', calm'⟩ := calm_of_drag calm traceable l ⟨a, b⟩
  exact ⟨l, _, drag_eq_map_moved l traced.found (exactPosition_map hx hy ha hb),
    (l.onlyMoves_map_moved_iff _).2 (alone_of_nodup l traceable.nodup _), calm'.reconcile_eq⟩

/-- A node with two decisions, one under a name with a hyphen, and the decision node of this one,
with an old summary. -/
def ordering : List Node :=
  let decided (name : String) : Document :=
    .object [("name", .text name), ("decision", .object [("action", .text "pass")])]
  [{ id := "decision-order-pick-size", kind := Node.decisionKind, position := ⟨1.0, 2.0⟩
     data := [], selected := true },
   { id := "order", kind := "node", position := ⟨0.0, 0.0⟩
     data := [(.text "functions", .list [decided "pick-size", decided "confirm"])] }]

theorem traceable_ordering : Traceable ordering where
  nodup := List.nodup_singleton _
  id_free := List.forall_mem_singleton.2 (by simp [Identifier.HyphenFree])
  id_feed := List.forall_mem_singleton.2 (by simp)
  id_ne_empty := List.forall_mem_singleton.2 (by simp)
  names := by
    refine List.forall_mem_singleton.2 fun fs functions => ?_
    obtain rfl := Except.ok.inj functions
    exact ⟨["pick-size", "confirm"], rfl, by decide, by decide⟩

theorem reconcile_traced_ordering : ∃ r d, reconcile {} ordering = .ok r ∧
    (∀ n ∈ ordering, (Document.map n.data).Defined) ∧ Traceable ordering ∧
    d ∈ r.nodes ∧ d.isDecision ∧ d.id = "decision-order-pick-size" ∧
    ∃ s, Traced r.nodes d s ∧ ∃ (l : Place d.id r.nodes s) (after : List Node),
      drag d.id (.object [("x", .float 7.0), ("y", .float 2.5)]) r.nodes = .ok after ∧
      l.OnlyMoves ⟨7.0, 2.5⟩ after ∧
      ∀ settings', reconcile settings' after = .ok { nodes := after } := by
  have defined : ∀ n ∈ ordering, (Document.map n.data).Defined := by
    simp [ordering, Document.Defined, Document.DefinedEntries, Document.DefinedItems,
      Scalar.Defined, Document.object, Scalar.alike, Scalar.wholeValue?]
  obtain ⟨r, run⟩ : ∃ r, reconcile {} ordering = .ok r := ⟨_, rfl⟩
  have there : ∃ d ∈ r.nodes, d.isDecision ∧ d.id = "decision-order-pick-size" := by
    obtain rfl := Except.ok.inj run
    exact ⟨_, .head _, rfl, rfl⟩
  obtain ⟨d, member, decision, id⟩ := there
  obtain ⟨s, traced, drags⟩ := reconcile_traced run defined traceable_ordering member decision
  exact ⟨r, d, run, defined, traceable_ordering, member, decision, id, s, traced,
    drags _ _ _ _ _ rfl rfl rfl rfl⟩

end Dialogue.Graph
