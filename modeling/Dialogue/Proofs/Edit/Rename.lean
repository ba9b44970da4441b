import Dialogue.Proofs.Check.Routing
import Dialogue.Proofs.Edit.Substitution
import Dialogue.Proofs.Flow.Writing
import Mathlib.Data.List.Nodup

/-!
# Renaming is substitution

Renaming a node of a flow document replaces its id, in the node and wherever functions refer to it,
by one that no node has, and derives the stored edges anew. It fails only for an unknown node, for
a name that is no identifier, or when all suffixes in reach are taken.
-/

namespace Dialogue

open Document (onMap)

/-! ## The new id -/

/-- The ids of the other nodes. -/
def Renaming.others (r : Renaming) (ids : List String) : List String := ids.filter (· != r.old)

/-- Why a node cannot be renamed: there is none of that id, the new id is no identifier, or it and
all its suffixes in reach belong to other nodes. -/
def Renaming.Impossible (settings : Settings) (r : Renaming) (ids : List String) : Prop :=
  r.old ∉ ids ∨ r.new ≠ r.old ∧ Identifier.isIdentifier r.new = false ∨
    r.new ∈ r.others ids ∧ ∀ k : Nat, 1 ≤ k → k ≤ settings.suffixAttempts →
      Identifier.suffixed r.new k ∈ r.others ids

namespace Edit

variable {settings : Settings} {r : Renaming} {ids : List String}

/-- All ids but one entry of the old id are taken. -/
theorem takenIds_texts (r : Renaming) (ids : List String) :
    takenIds ((ids.map Document.text).filter fun id => !id.isText r.old) = .ok (r.others ids) := by
  have texts : (ids.map Document.text).filter (fun id => !id.isText r.old) =
      (r.others ids).map .text := by
    simp [Renaming.others, List.filter_map, Function.comp_def, bne]
  have keys : ((r.others ids).map Document.text).mapM Document.asKey =
      .ok ((r.others ids).map Scalar.text) := mapM_map_eq_map fun _ _ => rfl
  simp [takenIds, texts, keys, List.filterMap_map]

/-- The final id is the new one if it is free, or the first of its numbered forms that is. -/
theorem finalId_texts (known : r.old ∈ ids) (free : Identifier.HyphenFree r.old) :
    finalId settings r (ids.map .text) =
      if r.new = r.old then .ok r.new
      else if Identifier.isIdentifier r.new then
        Identifier.disambiguate r.new (r.others ids) settings.suffixAttempts
      else .error (.invalidIdentifier r.new) := by
  have any : (ids.map Document.text).any (·.isText r.old) = true := by
    simpa [List.any_map, Function.comp_def] using known
  have taken := takenIds_texts r ids
  simp only [finalId, any, Identifier.not_isManaged_of_hyphenFree free, Bool.not_true,
    Bool.false_eq_true, if_false, taken, liftM_eq_lift, lift_ok, ok_bind]
  split
  · rfl
  · cases Identifier.isIdentifier r.new <;> rfl

theorem finalId_of_unknown (unknown : r.old ∉ ids) :
    finalId settings r (ids.map .text) = .error (.unknownNode r.old) := by
  have none : (ids.map Document.text).any (·.isText r.old) = false := by
    simpa [List.any_map, Function.comp_def] using
      fun s there (same : s = r.old) => unknown (same ▸ there)
  simp [finalId, none]

/-- The plan fails where a rename is impossible, and nowhere else. -/
theorem finalId_fails_iff (settings : Settings) (r : Renaming)
    (free : ∀ id ∈ ids, Identifier.HyphenFree id) :
    (∃ e, finalId settings r (ids.map .text) = .error e) ↔ r.Impossible settings ids := by
  by_cases known : r.old ∈ ids
  · have new_mem : r.new ∈ r.others ids → r.new ≠ r.old := fun h => by
      simpa using (List.mem_filter.1 h).2
    rw [finalId_texts known (free _ known), Renaming.Impossible]
    simp only [known, not_true_eq_false, false_or]
    split
    case isTrue same =>
      refine ⟨fun h => ?_, ?_⟩
      · obtain ⟨e, h⟩ := h
        cases h
      · rintro (⟨ne, -⟩ | ⟨taken, -⟩)
        · exact absurd same ne
        · exact absurd same (new_mem taken)
    case isFalse ne =>
      cases valid : Identifier.isIdentifier r.new with
      | false => simp [ne]
      | true => simpa [ne] using Identifier.disambiguate_fails_iff
  · rw [finalId_of_unknown known]
    simp [Renaming.Impossible, known]

/-- Another id than the old one is fresh and not empty. -/
theorem finalId_spec {final : String} (free : ∀ id ∈ ids, Identifier.HyphenFree id)
    (h : finalId settings r (ids.map .text) = .ok final) :
    r.old ∈ ids ∧ (final ≠ r.old → final ∉ ids ∧ final ≠ "") := by
  have known : r.old ∈ ids := by
    by_contra unknown
    obtain ⟨e, fails⟩ := (finalId_fails_iff settings r free).2 (.inl unknown)
    rw [fails] at h
    cases h
  rw [finalId_texts known (free _ known)] at h
  refine ⟨known, fun ne => ?_⟩
  split at h
  case isTrue same => exact absurd (Except.ok.inj h ▸ same) ne
  case isFalse =>
    split at h
    case isFalse => cases h
    case isTrue valid =>
      obtain ⟨fresh, made⟩ := Identifier.disambiguate_eq_ok h
      refine ⟨fun there => fresh (List.mem_filter.2 ⟨there, by simpa using ne⟩), ?_⟩
      rcases made with rfl | ⟨k, rfl⟩
      · exact Identifier.ne_empty_of_isIdentifier valid
      · simp [Identifier.suffixed]

theorem hyphenFree_finalId {final : String} (free : ∀ id ∈ ids, Identifier.HyphenFree id)
    (h : finalId settings r (ids.map .text) = .ok final) : Identifier.HyphenFree final := by
  have known := (finalId_spec free h).1
  rw [finalId_texts known (free _ known)] at h
  split at h
  case isTrue same => exact Except.ok.inj h ▸ same ▸ free _ known
  case isFalse =>
    split at h
    case isTrue valid =>
      exact Identifier.hyphenFree_disambiguate h (Identifier.hyphenFree_of_isIdentifier valid)
    case isFalse => cases h

end Edit

/-! ## The renamed document -/

/-- The document with the new id: in the first node that has the old one, and wherever functions
refer to it. The edges are those that such nodes store; all else stays as it is. -/
def Renaming.Replaces (r : Renaming) (d result : Document) : Prop :=
  ∃ (es : Entries) (before : List Document) (first : Entries) (after nodes edges : List Document),
    d = .map es ∧ es.get "nodes" = .list (before ++ .map first :: after) ∧
    (∀ b ∈ before, b.field "id" ≠ .ok (.text r.old)) ∧ first.get "id" = .text r.old ∧
    nodes = before.map (onMap r.inNode) ++
      .map ((r.inNode first).put "id" (.text r.new)) :: after.map (onMap r.inNode) ∧
    Graph.storedEdges nodes = .ok edges ∧
    result = .map ((es.put "nodes" (.list nodes)).put "edges" (.list edges))

namespace Edit

variable {settings : Settings} {r : Renaming}

/-- Only the first node of the old id gets the new one. -/
theorem renameFirst_append {before after : List Document} {es : Entries}
    (others : ∀ b ∈ before, b.field "id" ≠ .ok (.text r.old)) (here : es.get "id" = .text r.old) :
    renameFirst r (before ++ .map es :: after) =
      before ++ .map (es.put "id" (.text r.new)) :: after := by
  induction before with
  | nil => simp [renameFirst, here]
  | cons b before ih =>
    have rest := ih fun b member => others b (.tail _ member)
    have other := others b (.head _)
    cases b with
    | map fs =>
      have ne : ¬ (Entries.get fs "id").isText r.old := by
        rw [Document.isText_iff]
        simpa [Document.field, Document.entries] using other
      simp [renameFirst, ne, rest]
    | scalar s => simp [renameFirst, rest]
    | list ds => simp [renameFirst, rest]

/-- The first of some shown nodes with an id, and the nodes before and after it. -/
theorem exists_first {ds : List Document} {ns : List FlowNode} {id : String}
    (shown : List.Forall₂ FlowNode.ShownIn ds ns) (known : id ∈ ns.map (·.id)) :
    ∃ before first after ns₁ n ns₂, ds = before ++ .map first :: after ∧ ns = ns₁ ++ n :: ns₂ ∧
      List.Forall₂ FlowNode.ShownIn before ns₁ ∧ n.ShownBy first ∧
      List.Forall₂ FlowNode.ShownIn after ns₂ ∧ n.id = id ∧ id ∉ ns₁.map (·.id) := by
  induction shown with
  | nil => cases known
  | @cons d n ds ns here rest ih =>
    by_cases same : n.id = id
    · obtain ⟨es, rfl, here⟩ := here
      exact ⟨[], es, ds, [], n, ns, rfl, rfl, .nil, here, rest, same, nofun⟩
    · obtain ⟨before, first, after, ns₁, m, ns₂, rfl, rfl, left, mid, right, named, fresh⟩ :=
        ih (by simpa [Ne.symm same] using known)
      exact ⟨d :: before, first, after, n :: ns₁, m, ns₂, rfl, rfl, .cons here left, mid, right,
        named, by simpa [Ne.symm same] using fresh⟩

/-- No node is shown with an absent id. -/
theorem field_id_ne {ds : List Document} {ns : List FlowNode} {id : String}
    (shown : List.Forall₂ FlowNode.ShownIn ds ns) (absent : id ∉ ns.map (·.id)) :
    ∀ d ∈ ds, d.field "id" ≠ .ok (.text id) := by
  intro d member
  obtain ⟨n, among, shows⟩ := exists_of_mem_left shown member
  rw [shows.field_id]
  simp only [ne_eq, Except.ok.injEq, Document.scalar.injEq, Scalar.text.injEq]
  exact fun same => absent (List.mem_map.2 ⟨n, among, same⟩)

/-- A plan looks at the ids of the flow only. -/
theorem planRename_of_shownBy {es : Entries} {f : Flow} (shown : f.ShownBy es) :
    planRename settings r (.map es) = finalId settings r (f.ids.map .text) := by
  obtain ⟨⟨ds, stands, items⟩, -⟩ := shown
  have ids : nodeIds ds = .ok (f.nodes.map fun n => .text n.id) :=
    mapM_of_forall₂ items fun _ _ h => h.field_id
  have texts : f.nodes.map (fun n => Document.text n.id) = f.ids.map .text := by simp [Flow.ids]
  simp [planRename, Document.asMap, stands, ids, texts]

/-! ### The renamed flow -/

@[simp] theorem targets_renamed (d : Decision) :
    (d.renamed r).targets = d.targets.map r.id := by
  simp [Decision.targets, Decision.renamed, Condition.renamed]

/-- All references of a function are renamed in order. -/
theorem references_renamed {f : NodeFunction} (empty : ∀ s, r.id s = "" ↔ s = "") :
    (f.renamed r).references = f.references.map r.id := by
  simp only [NodeFunction.references, NodeFunction.renamed]
  cases f.target with
  | none => cases f.decision <;> simp
  | some t => cases f.decision <;> by_cases h : t = "" <;> simp [Option.filter, empty, h]

theorem decision_renamed (f : NodeFunction) :
    (f.renamed r).decision = f.decision.map (·.renamed r) := rfl

theorem directTarget?_renamed {f : NodeFunction} (empty : ∀ s, r.id s = "" ↔ s = "") :
    (f.renamed r).directTarget? = f.directTarget?.map r.id := by
  simp only [NodeFunction.directTarget?, NodeFunction.renamed]
  cases f.decision with
  | some d => rfl
  | none =>
    cases f.target with
    | none => rfl
    | some t => by_cases h : t = "" <;> simp [empty, h]

/-- All live routes of a function are renamed in order. -/
theorem routes_renamed {f : NodeFunction} (empty : ∀ s, r.id s = "" ↔ s = "") :
    (f.renamed r).routes = f.routes.map r.id := by
  cases h : f.decision with
  | some d => simp [NodeFunction.routes, decision_renamed, h]
  | none =>
    simp [NodeFunction.routes, decision_renamed, h, directTarget?_renamed empty, Option.toList_map]

/-- The nodes of a flow once the first of an id has a new one. -/
def renamedNodes (r : Renaming) (ns₁ : List FlowNode) (n : FlowNode) (ns₂ : List FlowNode) :
    List FlowNode :=
  ns₁.map (·.renamed r) ++ { n.renamed r with id := r.new } :: ns₂.map (·.renamed r)

/-- The data of every node are renamed. -/
theorem mem_renamedNodes {ns₁ ns₂ : List FlowNode} {n m : FlowNode}
    (member : m ∈ renamedNodes r ns₁ n ns₂) :
    ∃ m' ∈ ns₁ ++ n :: ns₂, m.data = (m'.data.renamed r) := by
  simp only [renamedNodes, List.mem_append, List.mem_cons, List.mem_map] at member
  rcases member with ⟨m', there, rfl⟩ | rfl | ⟨m', there, rfl⟩
  · exact ⟨m', by simp [there], rfl⟩
  · exact ⟨n, by simp, rfl⟩
  · exact ⟨m', by simp [there], rfl⟩

section

variable {f g : Flow} {ns₁ ns₂ : List FlowNode} {n : FlowNode}

/-- The ids before and after a rename differ in one place. -/
theorem ids_renamedNodes (old : f.nodes = ns₁ ++ n :: ns₂) (first : n.id = r.old)
    (new : g.nodes = renamedNodes r ns₁ n ns₂) :
    f.ids = ns₁.map (·.id) ++ r.old :: ns₂.map (·.id) ∧
      g.ids = ns₁.map (·.id) ++ r.new :: ns₂.map (·.id) := by
  simp [Flow.ids, old, first, new, renamedNodes, FlowNode.renamed, Function.comp_def]

/-- Where a route ended at a node, it still does: at the renamed one if at the old one before. A
route that led to the new id now ends at the renamed node too. -/
theorem id_mem_ids (old : f.nodes = ns₁ ++ n :: ns₂) (first : n.id = r.old)
    (new : g.nodes = renamedNodes r ns₁ n ns₂) (t : String) :
    r.id t ∈ g.ids ↔ t ∈ f.ids ∨ t = r.new := by
  obtain ⟨oldIds, newIds⟩ := ids_renamedNodes old first new
  rw [oldIds, newIds]
  by_cases same : t = r.old
  · simp [Renaming.id, same]
  · simp only [Renaming.id, same, if_false, List.mem_append, List.mem_cons, false_or]
    tauto

/-- A whole flow stays whole under a rename to a free id. -/
theorem whole_renamed (empty : ∀ s, r.id s = "" ↔ s = "") (old : f.nodes = ns₁ ++ n :: ns₂)
    (first : n.id = r.old) (new : g.nodes = renamedNodes r ns₁ n ns₂)
    (edges : g.edges = g.nodes.flatMap FlowNode.directEdges) (free : r.new ∉ f.ids)
    (whole : f.Whole) : g.Whole := by
  obtain ⟨oldIds, newIds⟩ := ids_renamedNodes old first new
  have routes : ∀ m ∈ g.nodes, ∀ h ∈ m.data.functionList, ∀ t ∈ h.routes, t ∈ g.ids := by
    intro m member h called t leads
    rw [new] at member
    obtain ⟨m', there, data⟩ := mem_renamedNodes member
    rw [data, NodeData.functionList_renamed] at called
    obtain ⟨h, before, rfl⟩ := List.mem_map.1 called
    rw [routes_renamed empty] at leads
    obtain ⟨t, target, rfl⟩ := List.mem_map.1 leads
    exact (id_mem_ids old first new t).2 (.inl (whole.routes m' (old ▸ there) h before t target))
  refine ⟨?_, fun m member => ?_, ?_, routes⟩
  · have nodup := whole.ids
    rw [oldIds, List.nodup_middle, List.nodup_cons] at nodup
    rw [newIds, List.nodup_middle, List.nodup_cons]
    refine ⟨fun there => free ?_, nodup.2⟩
    rw [oldIds]
    simp only [List.mem_append, List.mem_cons] at there ⊢
    tauto
  · rw [new] at member
    obtain ⟨m', there, data⟩ := mem_renamedNodes member
    have names : m.data.functionList.map (·.name) = m'.data.functionList.map (·.name) := by
      simp [data, NodeFunction.renamed]
    rw [names]
    exact whole.names m' (old ▸ there)
  · rw [edges]
    exact Flow.ends_of_directEdges (fun m member => List.mem_map_of_mem member) routes

end

/-- All references of a flow are renamed in order. -/
theorem references_renamedNodes {ns₁ ns₂ : List FlowNode} {n : FlowNode}
    (empty : ∀ s, r.id s = "" ↔ s = "") :
    (renamedNodes r ns₁ n ns₂).flatMap (fun n => n.data.functionList.flatMap (·.references)) =
      ((ns₁ ++ n :: ns₂).flatMap fun n => n.data.functionList.flatMap (·.references)).map r.id := by
  have each (fs : List NodeFunction) : (fs.map (·.renamed r)).flatMap (·.references) =
      (fs.flatMap (·.references)).map r.id := by
    simp [List.flatMap_map, List.map_flatMap, references_renamed empty]
  simp [renamedNodes, FlowNode.renamed, each, List.flatMap_map, List.map_flatMap]

/-- The rewritten nodes show the renamed ones. -/
theorem shownIn_renamedNodes {before after : List Document} {first : Entries}
    {ns₁ ns₂ : List FlowNode} {n : FlowNode} (left : List.Forall₂ FlowNode.ShownIn before ns₁)
    (mid : n.ShownBy first) (right : List.Forall₂ FlowNode.ShownIn after ns₂) :
    List.Forall₂ FlowNode.ShownIn (before.map (onMap r.inNode) ++
      .map ((r.inNode first).put "id" (.text r.new)) :: after.map (onMap r.inNode))
      (renamedNodes r ns₁ n ns₂) := by
  have left := FlowNode.ShownIn.renamed_all r left
  have right := FlowNode.ShownIn.renamed_all r right
  obtain ⟨es, same, -, data⟩ : (n.renamed r).ShownIn (.map (r.inNode first)) :=
    FlowNode.ShownIn.renamed r ⟨first, rfl, mid⟩
  obtain rfl := Document.map.inj same
  refine List.rel_append left (.cons ⟨_, rfl, by simp [Entries.get?_put], ?_⟩ right)
  rw [Entries.get_put, if_neg (by decide)]
  exact data

/-- Retargeting keeps the ids, so the first node with the old one is where it was. -/
theorem renameFirst_retargeted {before after : List Document} {first : Entries}
    {ns : List FlowNode} (left : List.Forall₂ FlowNode.ShownIn before ns)
    (others : r.old ∉ ns.map (·.id)) (here : first.get "id" = .text r.old) :
    renameFirst r ((before ++ .map first :: after).map (onMap r.inNode)) =
      before.map (onMap r.inNode) ++
        .map ((r.inNode first).put "id" (.text r.new)) :: after.map (onMap r.inNode) := by
  rw [List.map_append, List.map_cons]
  refine renameFirst_append (field_id_ne (FlowNode.ShownIn.renamed_all r left) ?_) ?_
  · rw [List.map_map]
    exact others
  · rw [Renaming.inNode, Entries.get_modify _ (by decide), here]

/-! ### The result -/

/-- What renaming a node makes of a flow. -/
structure RenamedFlow (r : Renaming) (f g : Flow) : Prop where
  nodes : ∃ ns₁ n ns₂, f.nodes = ns₁ ++ n :: ns₂ ∧ n.id = r.old ∧ g.nodes = renamedNodes r ns₁ n ns₂
  references : g.references = f.references.map r.id
  /-- A flow stays whole. -/
  whole : f.Whole → g.Whole

/-- Retargeting the nodes and renaming the first replaces an id by one that no node has. The
document then shows the renamed flow. -/
theorem replaces_of_fresh {es : Entries} {f : Flow} (shown : f.ShownBy es) (lawful : f.Lawful)
    (known : r.old ∈ f.ids) (fresh : r.new ∉ f.ids) (nonempty : r.new ≠ "") :
    ∃ ds nodes result, es.get "nodes" = .list ds ∧ ds.mapM (fun d => (r.node d).lift) = .ok nodes ∧
      withNodes es (renameFirst r nodes) = .ok result ∧ r.Replaces (.map es) result ∧
      ∃ g : Flow, g.ShownIn result ∧ RenamedFlow r f g := by
  obtain ⟨⟨ds, stands, items⟩, -⟩ := shown
  obtain ⟨before, first, after, ns₁, n, ns₂, rfl, split, left, mid, right, named, others⟩ :=
    exists_first items known
  have old : r.old ≠ "" := Identifier.ne_empty_of_isIdentifier (lawful.isIdentifier _ known)
  have empty := Renaming.id_eq_empty_iff old nonempty
  have nodesShown := shownIn_renamedNodes (r := r) left mid right
  have functionNames : ∀ m ∈ renamedNodes r ns₁ n ns₂, ∀ h ∈ m.data.functionList, h.name ≠ "" := by
    intro m member h called
    obtain ⟨m', there, data⟩ := mem_renamedNodes member
    rw [data, NodeData.functionList_renamed] at called
    obtain ⟨h, before, rfl⟩ := List.mem_map.1 called
    exact Identifier.ne_empty_of_isIdentifier ((lawful.nodes m' (split ▸ there)).names h before)
  have edges := Graph.storedEdges_of_shown nodesShown functionNames
  have here : Entries.get first "id" = .text r.old := by rw [Entries.get_of_get? mid.id, named]
  have retargeted : (before ++ .map first :: after).mapM (fun d => (r.node d).lift) =
      .ok ((before ++ .map first :: after).map (onMap r.inNode)) := by
    refine mapM_eq_map fun d member => ?_
    obtain ⟨m, -, shows⟩ := exists_of_mem_left items member
    rw [Renaming.node_of_shownIn r shows, lift_ok]
  refine ⟨_, _, _, stands, retargeted, ?_, ⟨es, before, first, after, _, _, rfl, stands,
    field_id_ne left others, here, rfl, edges, rfl⟩, { f with
      nodes := renamedNodes r ns₁ n ns₂
      edges := (renamedNodes r ns₁ n ns₂).flatMap FlowNode.directEdges }, ?_,
    ⟨ns₁, n, ns₂, split, named, rfl⟩, ?_, ?_⟩
  · rw [withNodes, renameFirst_retargeted left others here, edges, ok_bind]
  · refine ⟨_, rfl, ⟨_, ?_, nodesShown⟩, ?_⟩
    · rw [Entries.get_put, if_neg (by decide), Entries.get_put_self]
    · rw [Entries.get_put_self]
      exact Document.lists_listOf fun e _ => e.shownIn_document
  · rw [Flow.references, Flow.references, split]
    exact references_renamedNodes empty
  · exact whole_renamed empty split named rfl rfl fresh

/-- A planned rename to another id succeeds, and substitutes the id throughout the document. -/
theorem rename_of_planRename {es : Entries} {f : Flow} {final : String} (shown : f.ShownBy es)
    (lawful : f.Lawful) (plan : planRename settings r (.map es) = .ok final) (ne : final ≠ r.old) :
    final ∉ f.ids ∧ ∃ result, rename settings r (.map es) = .ok result ∧
      Renaming.Replaces ⟨r.old, final⟩ (.map es) result ∧
      ∃ g : Flow, g.ShownIn result ∧ RenamedFlow ⟨r.old, final⟩ f g := by
  have planned := plan
  rw [planRename_of_shownBy shown] at planned
  obtain ⟨known, new⟩ := finalId_spec lawful.hyphenFree planned
  obtain ⟨fresh, nonempty⟩ := new ne
  obtain ⟨ds, nodes, result, stands, retargeted, edges, rest⟩ :=
    replaces_of_fresh (r := ⟨r.old, final⟩) shown lawful known fresh nonempty
  refine ⟨fresh, result, ?_, rest⟩
  simp only [rename, plan, ok_bind, liftM_eq_lift, lift_ok, Document.asMap, ne, if_false, stands,
    Document.elements, retargeted, edges]

/-- What a rename that gives `result` has done, `final` being the id that it was planned to give. -/
structure Renamed (old final : String) (ids : List String) (d result : Document) : Prop where
  /-- Where the node keeps its id, the document stays as it is. -/
  unchanged : final = old → result = d
  /-- Else the new id is that of no node, and replaces the old one. -/
  replaced : final ≠ old → final ∉ ids ∧ Renaming.Replaces ⟨old, final⟩ d result
  references : ∃ refs, references d = .ok refs ∧
    Dialogue.references result = .ok (refs.map (Renaming.value ⟨old, final⟩))
  /-- No errors come up where there were none. -/
  issues : ∃ is js, Check.routeIssues d = .ok is ∧ Check.routeIssues result = .ok js ∧
    (Check.Clear is → Check.Clear js)

theorem renamed_of_planRename {es : Entries} {f : Flow} {final : String} (shown : f.ShownBy es)
    (lawful : f.Lawful) (plan : planRename settings r (.map es) = .ok final) :
    ∃ result, rename settings r (.map es) = .ok result ∧
      Renamed r.old final f.ids (.map es) result := by
  have before := references_of_shownIn ⟨es, rfl, shown⟩
  obtain ⟨is, found, clear⟩ := Check.clearIff_routeIssues ⟨es, rfl, shown⟩
  by_cases same : final = r.old
  · have value (d : Document) : Renaming.value ⟨r.old, final⟩ d = d := by
      unfold Renaming.value
      split
      · rename_i old
        rw [Document.isText_iff.1 old, same]
      · rfl
    refine ⟨.map es, ?_, fun _ => rfl, fun ne => absurd same ne, ⟨_, before, ?_⟩, is, is, found,
      found, id⟩
    · simp only [rename, plan, ok_bind, liftM_eq_lift, lift_ok, Document.asMap, same, if_true]
    · rw [before, List.map_congr_left fun d _ => value d, List.map_id']
  · obtain ⟨fresh, result, made, replaces, g, shows, renamed⟩ :=
      rename_of_planRename shown lawful plan same
    obtain ⟨js, found', clear'⟩ := Check.clearIff_routeIssues shows
    refine ⟨result, made, fun h => absurd h same, fun _ => ⟨fresh, replaces⟩, ⟨_, before, ?_⟩,
      is, js, found, found', fun h => clear'.2 (renamed.whole (clear.1 h))⟩
    rw [references_of_shownIn shows, renamed.references]
    simp

/-- Renaming a node of a valid flow fails just when it is impossible, and else replaces its id. -/
theorem rename_exact (settings : Settings) (r : Renaming) {d : Document} {f : Flow}
    (checked : Flow.check d = .ok f) :
    ((∃ e, rename settings r d = .error e) ↔ r.Impossible settings f.ids) ∧
      ∀ result, rename settings r d = .ok result →
        ∃ final, planRename settings r d = .ok final ∧ Renamed r.old final f.ids d result := by
  obtain ⟨⟨es, rfl, shown⟩, lawful⟩ := Flow.shownIn_of_check checked
  rw [← finalId_fails_iff settings r lawful.hyphenFree, ← planRename_of_shownBy shown]
  cases plan : planRename settings r (.map es) with
  | error e =>
    have fails : rename settings r (.map es) = .error e := by simp [rename, plan]
    refine ⟨⟨fun _ => ⟨e, rfl⟩, fun _ => ⟨e, fails⟩⟩, fun result made => ?_⟩
    rw [fails] at made
    cases made
  | ok final =>
    obtain ⟨result, made, renamed⟩ := renamed_of_planRename shown lawful plan
    refine ⟨⟨fun ⟨e, fails⟩ => ?_, fun ⟨e, fails⟩ => nomatch fails⟩, fun result' made' => ?_⟩
    · rw [made] at fails
      cases fails
    · obtain rfl := Except.ok.inj (made.symm.trans made')
      exact ⟨final, rfl, renamed⟩

/-- The other node has the new id already, so a suffix is added. -/
theorem rename_sample : ∃ result,
    rename {} ⟨"greet", "close"⟩ Flow.sample.document = .ok result ∧
      Renamed "greet" "close_1" Flow.sample.ids Flow.sample.document result := by
  obtain ⟨fails, returns⟩ := rename_exact {} ⟨"greet", "close"⟩ Flow.check_sample
  have plan : planRename {} ⟨"greet", "close"⟩ Flow.sample.document = .ok "close_1" := rfl
  cases made : rename {} ⟨"greet", "close"⟩ Flow.sample.document with
  | error e =>
    rcases fails.1 ⟨e, made⟩ with unknown | ⟨-, invalid⟩ | ⟨-, taken⟩
    · exact absurd unknown (by decide)
    · exact absurd invalid (by decide)
    · exact absurd (taken 1 (by decide) (by decide)) (by decide)
  | ok result =>
    obtain ⟨final, planned, renamed⟩ := returns result made
    obtain rfl := Except.ok.inj (plan.symm.trans planned)
    exact ⟨result, rfl, renamed⟩

end Edit
end Dialogue
