import Dialogue.Proofs.Edit.Carried
import Dialogue.Proofs.Edit.Removal
import Dialogue.Proofs.Edit.Rename
import Dialogue.Proofs.Flow.Slug

/-!
# Edits keep documents loadable

Renaming and deleting work on documents as they were accepted, with fields left out, written
otherwise than the writer does, or unknown. However a document is edited, as long as a node is left
the format accepts it, and once a step has changed it, it stores the edges of its nodes.
-/

namespace Dialogue

open Document (onMap)

/-! ## Documents with other nodes -/

theorem Entries.mem_put {es : Entries} {key : String} {d : Document} {e : Scalar × Document}
    (member : e ∈ es.put key d) : e.1 = .text key ∨ e ∈ es := by
  induction es with
  | nil => simp_all [Entries.put]
  | cons x es ih =>
    obtain ⟨k, y⟩ := x
    by_cases same : k = .text key
    · simp only [Entries.put, same, if_true, List.mem_cons] at member ⊢
      rcases member with rfl | member
      · exact .inl rfl
      · exact .inr (.inr member)
    · simp only [Entries.put, same, if_false, List.mem_cons] at member ⊢
      rcases member with rfl | member
      · exact .inr (.inl rfl)
      · exact (ih member).imp_right .inr

namespace Reading

variable {α : Type} {es fs : Entries} {key : String} {read : Reading α}

/-- A node may be given another valid id. -/
theorem exists_node_put_id {r : Renaming} (new : Identifier.isIdentifier r.new)
    {n : FlowNode} (h : node (.map es) = .ok n) :
    ∃ m, node (.map (es.put "id" (.text r.new))) = .ok m := by
  simp only [node, record_eq_ok, Document.map.injEq, exists_eq_left', Checked.functor_map_eq,
    Checked.seq_eq_ok, Checked.map_eq_ok, Checked.exists_exists_and_and] at h ⊢
  obtain ⟨id, named, role, typed, position, placed, data, told, rfl⟩ := h
  have elsewhere (key : String) (ne : "id" ≠ key) :
      (es.put "id" (.text r.new)).get? key = es.get? key := by
    rw [Entries.get?_put, if_neg ne]
  refine ⟨_, r.new, ?_, role, ?_, position, ?_, data, ?_, rfl⟩
  · exact required_eq_ok.2 ⟨_, by rw [Entries.get?_put, if_pos rfl], nameOf_eq_ok.2 ⟨rfl, new⟩⟩
  · rwa [defaulting_congr (elsewhere _ (by decide))]
  · rwa [required_congr (elsewhere _ (by decide))]
  · rwa [defaulting_congr (elsewhere _ (by decide))]

/-- No unknown fields are found where all keys are known texts. -/
theorem noOthers_eq_ok {known : List String} :
    noOthers es known = .ok () ↔ ∀ e ∈ es, ∃ key ∈ known, e.1 = .text key := by
  refine ⟨fun h => ?_, noOthers_of_known⟩
  obtain ⟨us, h, -⟩ := Checked.map_eq_ok.1 h
  rw [Checked.all_eq_ok, List.forall₂_map_left_iff] at h
  rintro ⟨k, d⟩ member
  obtain ⟨u, -, h⟩ := exists_of_mem_left h member
  cases k with
  | text s =>
    by_cases among : s ∈ known
    · exact ⟨s, among, rfl⟩
    · simp [among] at h
  | _ => simp at h

/-- Which spelling of a name counts depends on these two fields alone. -/
theorem spelling_congr {other : String} (here : fs.get? key = es.get? key)
    (there : fs.get? other = es.get? other) : spelling fs key other = spelling es key other := by
  rw [spelling, spelling, Entries.has, Entries.has, Entries.has, Entries.has, here, there]

theorem optional_spelling_congr {other : String} (here : fs.get? key = es.get? key)
    (there : fs.get? other = es.get? other) :
    optional fs (spelling fs key other) read = optional es (spelling es key other) read := by
  rw [spelling_congr here there]
  unfold spelling
  split
  · exact optional_congr there
  · exact optional_congr here

end Reading

/-- Other nodes and edges may stand in an accepted document if there are nodes and all are read. -/
theorem Flow.check_of_elsewhere {es fs : Entries} {f : Flow} (h : Flow.check (.map es) = .ok f)
    (elsewhere : ∀ key, "nodes" ≠ key → "edges" ≠ key → fs.get? key = es.get? key)
    (keys : ∀ e ∈ fs, e.1 = .text "nodes" ∨ e.1 = .text "edges" ∨ e ∈ es) {ns : List FlowNode}
    {edges : List StoredEdge} (nodes : Reading.required fs "nodes" Reading.nodes = .ok ns)
    (stored : Reading.defaulting fs "edges" [] (Reading.listOf Reading.storedEdge) = .ok edges) :
    Flow.check (.map fs) = .ok { f with nodes := ns, edges := edges } := by
  simp only [Flow.check, Checked.toExcept_eq_ok, Reading.flow, Reading.record_eq_ok,
    Document.map.injEq, exists_eq_left', Checked.functor_map_eq, Checked.seq_eq_ok,
    Checked.map_eq_ok, Checked.exists_exists_and_and] at h ⊢
  obtain ⟨uri, located, id, identified, info, informed, context, given, globals, shared, _, -, _, -,
    none, known, rfl⟩ := h
  have fields : Reading.flowFields fs = Reading.flowFields es := by
    rw [Reading.flowFields, Reading.flowFields,
      Reading.spelling_congr (elsewhere "$schema" (by decide) (by decide))
        (elsewhere _ (by decide) (by decide)),
      Reading.spelling_congr (elsewhere "$id" (by decide) (by decide))
        (elsewhere _ (by decide) (by decide))]
  refine ⟨uri, ?_, id, ?_, info, ?_, context, ?_, globals, ?_, ns, nodes, edges, stored, (), ?_,
    rfl⟩
  · rwa [Reading.optional_spelling_congr (elsewhere _ (by decide) (by decide))
      (elsewhere _ (by decide) (by decide))]
  · rwa [Reading.optional_spelling_congr (elsewhere _ (by decide) (by decide))
      (elsewhere _ (by decide) (by decide))]
  · rwa [Reading.required_congr (elsewhere _ (by decide) (by decide))]
  · rwa [Reading.optional_congr (elsewhere _ (by decide) (by decide))]
  · rwa [Reading.optional_congr (elsewhere _ (by decide) (by decide))]
  · rw [fields, Reading.noOthers_eq_ok]
    intro e member
    rcases keys e member with node | edge | old
    · exact ⟨"nodes", by simp [Reading.flowFields], node⟩
    · exact ⟨"edges", by simp [Reading.flowFields], edge⟩
    · exact Reading.noOthers_eq_ok.1 known e old

namespace Edit

/-- The edges that the document stores are those of its nodes. -/
def EdgesDerived (d : Document) : Prop :=
  ∃ nodes edges, d.field "nodes" = .ok (.list nodes) ∧ Graph.storedEdges nodes = .ok edges ∧
    d.field "edges" = .ok (.list edges)

/-- The edges of nodes that are read can be read themselves, even those that end at no node. -/
theorem storedEdge_of_directEdges {ns : List FlowNode} (lawful : ∀ n ∈ ns, n.Lawful) :
    ∀ e ∈ ns.flatMap FlowNode.directEdges, Reading.storedEdge e.document = .ok e := by
  intro e member
  obtain ⟨n, there, direct⟩ := List.mem_flatMap.1 member
  exact Reading.storedEdge_directEdge (Identifier.ne_empty_of_isIdentifier (lawful n there).id)
    direct

/-- Whatever nodes are written, the document is accepted if there are any and all can be read. -/
theorem check_withNodes {es : Entries} {f : Flow} (h : Flow.check (.map es) = .ok f)
    {ds : List Document} (some : ds ≠ []) (nodes : ∀ d ∈ ds, ∃ n, Reading.node d = .ok n) :
    ∃ t g, withNodes es ds = .ok t ∧ Flow.check t = .ok g ∧ EdgesDerived t := by
  obtain ⟨ns, read⟩ : ∃ ns, List.Forall₂ (fun d n => Reading.node d = .ok n) ds ns := by
    obtain ⟨ns, run⟩ := exists_mapM (f := fun d => (Reading.node d).toExcept)
      (by simpa only [Checked.toExcept_eq_ok] using nodes)
    exact ⟨ns, (mapM_eq_ok.1 run).imp fun _ _ h => Checked.toExcept_eq_ok.1 h⟩
  have lawful : ∀ n ∈ ns, n.Lawful := fun n member => by
    obtain ⟨d, -, h⟩ := exists_of_mem_right read member
    exact (Reading.shownIn_of_node h).2
  have edges := Graph.storedEdges_of_shown (read.imp fun _ _ h => (Reading.shownIn_of_node h).1)
    fun n member f called => Identifier.ne_empty_of_isIdentifier ((lawful n member).names f called)
  have accepted : Flow.check (.map ((es.put "nodes" (.list ds)).put "edges"
      (.list ((ns.flatMap FlowNode.directEdges).map StoredEdge.document)))) =
        .ok { f with nodes := ns, edges := ns.flatMap FlowNode.directEdges } := by
    refine Flow.check_of_elsewhere h (fun key node edge => ?_) (fun e member => ?_) ?_ ?_
    · rw [Entries.get?_put, if_neg edge, Entries.get?_put, if_neg node]
    · rcases Entries.mem_put member with edge | member
      · exact .inr (.inl edge)
      · exact (Entries.mem_put member).imp_right .inr
    · have enough : ¬ ns.length < 1 := by
        rw [← read.length_eq]
        simpa using some
      refine Reading.required_eq_ok.2 ⟨.list ds, by simp [Entries.get?_put],
        Checked.andThen_eq_ok.2 ⟨ns, Reading.listOf_eq_ok.2 ⟨ds, rfl, read⟩, ?_⟩⟩
      rw [Reading.leastItems, if_neg enough]
    · exact Reading.defaulting_eq_ok.2 (.inr ⟨_, by rw [Entries.get?_put, if_pos rfl]; rfl,
        Reading.listOf_document (storedEdge_of_directEdges lawful)⟩)
  refine ⟨_, _, by rw [withNodes, edges, ok_bind], accepted, ds, _, ?_, edges, ?_⟩
  · simp [Document.field, Document.entries, Entries.get_put]
  · simp [Document.field, Document.entries]

variable {settings : Settings} {r : Renaming}

/-- Only the node renamed is a new item. -/
theorem mem_renameFirst {ds : List Document} {d : Document} (member : d ∈ renameFirst r ds) :
    d ∈ ds ∨ ∃ es, .map es ∈ ds ∧ d = .map (Entries.put es "id" (.text r.new)) := by
  induction ds with
  | nil => cases member
  | cons x ds ih =>
    have rest (tail : d ∈ renameFirst r ds) :
        d ∈ x :: ds ∨ ∃ es, .map es ∈ x :: ds ∧ d = .map (Entries.put es "id" (.text r.new)) := by
      rcases ih tail with there | ⟨es, there, same⟩
      · exact .inl (.tail _ there)
      · exact .inr ⟨es, .tail _ there, same⟩
    cases x with
    | map es =>
      simp only [renameFirst] at member
      split at member <;> rcases List.mem_cons.1 member with rfl | tail
      · exact .inr ⟨es, .head _, rfl⟩
      · exact .inl (.tail _ tail)
      · exact .inl (.head _)
      · exact rest tail
    | _ =>
      rcases List.mem_cons.1 member with rfl | tail
      · exact .inl (.head _)
      · exact rest tail

theorem renameFirst_ne_nil {ds : List Document} (some : ds ≠ []) : renameFirst r ds ≠ [] := by
  cases ds with
  | nil => exact absurd rfl some
  | cons d ds =>
    cases d with
    | map es =>
      simp only [renameFirst]
      split <;> simp
    | _ => simp [renameFirst]

/-- The id that a node gets is an identifier if its name is a word, whatever suffix it has. -/
theorem isIdentifier_finalId {ids : List Document} {final : String}
    (word : Identifier.IsWordText r.new) (h : finalId settings r ids = .ok final)
    (ne : final ≠ r.old) : Identifier.isIdentifier final := by
  unfold finalId at h
  split at h
  case isTrue => cases h
  case isFalse =>
    split at h
    case isTrue => cases h
    case isFalse =>
      split at h
      case isTrue same => exact absurd (Except.ok.inj h ▸ same) ne
      case isFalse =>
        split at h
        case isTrue => cases h
        case isFalse valid =>
          obtain ⟨taken, -, h⟩ := bind_eq_ok.1 h
          exact Identifier.isIdentifier_disambiguate word (by simpa using valid) h

/-- Nodes that can be read can be rewritten. -/
theorem retarget_of_read (r : Renaming) {ds : List Document} {ns : List FlowNode}
    (read : List.Forall₂ (fun d n => Reading.node d = .ok n) ds ns) :
    ds.mapM (fun d => (r.node d).lift) = .ok (ds.map (onMap r.inNode)) := by
  refine mapM_eq_map fun d member => ?_
  obtain ⟨n, -, h⟩ := exists_of_mem_left read member
  rw [Renaming.node_of_shownIn r (Reading.shownIn_of_node h).1, lift_ok]

/-- After a rename to a valid id all nodes can still be read. -/
theorem exists_node_of_renamed (new : Identifier.isIdentifier r.new) {ds : List Document}
    {ns : List FlowNode} (read : List.Forall₂ (fun d n => Reading.node d = .ok n) ds ns) :
    ∀ d ∈ renameFirst r (ds.map (onMap r.inNode)), ∃ n, Reading.node d = .ok n := by
  have retargeted : ∀ d ∈ ds.map (onMap r.inNode), ∃ n, Reading.node d = .ok n := by
    rw [List.forall_mem_map]
    intro d member
    obtain ⟨n, -, h⟩ := exists_of_mem_left read member
    exact ⟨_, Reading.carries_node (Identifier.ne_empty_of_isIdentifier new) d n h⟩
  intro d member
  rcases mem_renameFirst member with old | ⟨es, old, rfl⟩
  · exact retargeted d old
  · obtain ⟨n, h⟩ := retargeted _ old
    exact Reading.exists_node_put_id new h

/-- A renamed flow is accepted again, with the edges of its routes. -/
theorem check_rename {d t : Document} {f : Flow} (checked : Flow.check d = .ok f)
    (word : Identifier.IsWordText r.new) (h : rename settings r d = .ok t) :
    t = d ∨ (∃ g, Flow.check t = .ok g) ∧ EdgesDerived t := by
  obtain ⟨⟨es, rfl, shown⟩, lawful⟩ := Flow.shownIn_of_check checked
  obtain ⟨ds, stands, read⟩ := Flow.nodes_of_check checked
  obtain ⟨final, plan, h⟩ := bind_eq_ok.1 h
  simp only [Document.asMap, liftM_eq_lift, lift_ok, ok_bind, stands, Document.elements,
    retarget_of_read _ read] at h
  split at h
  case isTrue => exact .inl (Except.ok.inj h).symm
  case isFalse ne =>
    rw [planRename_of_shownBy shown] at plan
    have new := isIdentifier_finalId word plan ne
    have some : ds.map (onMap (Renaming.inNode ⟨r.old, final⟩)) ≠ [] := by
      rintro none
      obtain rfl := List.map_eq_nil_iff.1 none
      exact lawful.someNode (List.forall₂_nil_left_iff.1 read)
    obtain ⟨t', g, made, accepted, derived⟩ := check_withNodes checked (renameFirst_ne_nil some)
      (exists_node_of_renamed (r := ⟨r.old, final⟩) new read)
    obtain rfl := Except.ok.inj (made.symm.trans (lift_eq_ok.1 h))
    exact .inr ⟨⟨g, accepted⟩, derived⟩

/-- At least one node stands in the document. -/
def HasNodes (d : Document) : Prop := ∃ n ns, d.field "nodes" = .ok (.list (n :: ns))

/-- So is a flow with a node deleted, unless it was the last. -/
theorem check_delete {id : String} {d t : Document} {f : Flow} (checked : Flow.check d = .ok f)
    (h : delete id d = .ok t) (some : HasNodes t) :
    (∃ g, Flow.check t = .ok g) ∧ EdgesDerived t := by
  obtain ⟨⟨es, rfl, shown⟩, -⟩ := Flow.shownIn_of_check checked
  obtain ⟨ds, stands, read⟩ := Flow.nodes_of_check checked
  have shows := read.imp fun _ _ h => (Reading.shownIn_of_node h).1
  cases managed : Identifier.isManaged id with
  | true =>
    rw [delete_managed managed] at h
    cases h
  | false =>
    rw [delete_of_shownIn managed stands shows] at h
    split at h
    case isFalse => cases h
    case isTrue =>
      have left : ∀ d ∈ others id ds, ∃ n, Reading.node d = .ok n := by
        intro d member
        obtain ⟨n, -, h⟩ := exists_of_mem_left read (List.mem_filter.1 member).1
        exact ⟨n, h⟩
      have remain : others id ds ≠ [] := by
        obtain ⟨n, ns, stands⟩ := some
        intro none
        rw [none, lift_eq_ok] at h
        obtain ⟨edges, -, made⟩ := bind_eq_ok.1 h
        obtain rfl := Except.ok.inj made
        simp [Document.field, Document.entries, Entries.get_put] at stands
      obtain ⟨t', g, made, accepted, derived⟩ := check_withNodes checked remain left
      obtain rfl := Except.ok.inj (made.symm.trans (lift_eq_ok.1 h))
      exact ⟨⟨g, accepted⟩, derived⟩

/-! ## Runs -/

/-- An edit of a flow document with its arguments. -/
inductive Revision where
  | rename (settings : Settings) (r : Renaming)
  | delete (id : String)

namespace Revision

def apply (d : Document) : Revision → Outcome Document
  | .rename settings r => Edit.rename settings r d
  | .delete id => Edit.delete id d

/-- Nodes are renamed to words. An id with a line feed at its end would be let through too, but with
a suffix it is no identifier any more. -/
def NewIdIsWord : Revision → Prop
  | .rename _ r => Identifier.IsWordText r.new
  | .delete _ => True

/-- An edit that fails leaves the document as it is. -/
def step (d : Document) (c : Revision) : Document :=
  match c.apply d with
  | .ok t => t
  | .error _ => d

/-- The document at first and after each of the edits. -/
def history (d : Document) : List Revision → List Document
  | [] => [d]
  | c :: cs => d :: history (step d c) cs

theorem head?_history (d : Document) (cs : List Revision) : (history d cs).head? = some d := by
  cases cs <;> rfl

/-- So is the flow after any one revision. -/
theorem accepted_step {d : Document} {f : Flow} (checked : Flow.check d = .ok f) {c : Revision}
    (word : c.NewIdIsWord) (some : HasNodes (step d c)) :
    (∃ g, Flow.check (step d c) = .ok g) ∧ (step d c ≠ d → EdgesDerived (step d c)) := by
  unfold step at some ⊢
  split
  case h_2 => exact ⟨⟨f, checked⟩, fun ne => absurd rfl ne⟩
  case h_1 t h =>
    rw [h] at some
    cases c with
    | rename settings r =>
      obtain rfl | ⟨accepted, derived⟩ := check_rename checked word h
      · exact ⟨⟨f, checked⟩, fun ne => absurd rfl ne⟩
      · exact ⟨accepted, fun _ => derived⟩
    | delete id =>
      obtain ⟨accepted, derived⟩ := check_delete checked h some
      exact ⟨accepted, fun _ => derived⟩

/-- The first node is renamed to an id that is taken, then the one that has it is deleted; the last
edit fails, since the id is a keyword. -/
def sample : List Revision :=
  [.rename {} ⟨"greet", "close"⟩, .delete "close", .rename {} ⟨"close_1", "def"⟩]

end Revision

end Edit

end Dialogue
