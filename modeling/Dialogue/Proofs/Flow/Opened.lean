import Dialogue.Flow.Loaded
import Dialogue.Proofs.Flow.Kept
import Dialogue.Proofs.Yaml.Value

/-!
# Flows with open values

A flow that was read from a document has that document's open values already. A flow whose open
values, taken from wherever it was read, are documents all of them, is the document of a flow that
is read again as it is.
-/

namespace Dialogue

open Yaml (Value Atom)
open Document (record)
open Reading (IsOther)

/-! ## Maps with a value made of each field -/

/-- The document that JSON has for a value, null when it has none. -/
def Yaml.Value.formOrNull (v : Value) : Document := v.document?.getD .null

@[simp] theorem Yaml.Value.formOrNull_ofDocument (d : Document) :
    (Value.ofDocument d).formOrNull = d := by
  simp [formOrNull]

section

variable {fill : String → Document → Value} {ps : List (String × Document)}
  {fields : List (String × Option Document)} {d j : Document}

/-- Each field of an object is filled by its own name. -/
theorem overlay_object : overlay fill (.object ps) =
    .map (ps.map fun p => (.scalar (.text p.1), fill p.1 p.2)) := by
  simp [overlay, Document.object]

theorem ofDocument_object : Value.ofDocument (.object ps) =
    .map (ps.map fun p => (.scalar (.text p.1), .ofDocument p.2)) := by
  simp [Document.object, Value.ofDocument]

/-- An overlay that fills every field with itself gives the object back. -/
theorem overlay_of_fixed (each : ∀ p ∈ ps, fill p.1 p.2 = .ofDocument p.2) :
    overlay fill (.object ps) = .ofDocument (.object ps) := by
  rw [overlay_object, ofDocument_object, List.map_congr_left fun p member => by rw [each p member]]

theorem overlay_record_of_fixed
    (each : ∀ f ∈ fields, ∀ d ∈ f.2, fill f.1 d = .ofDocument d) :
    overlay fill (record fields) = .ofDocument (record fields) := by
  refine overlay_of_fixed fun p member => ?_
  obtain ⟨f, there, same⟩ := List.mem_filterMap.1 member
  obtain ⟨d, set, rfl⟩ := Option.map_eq_some_iff.1 same
  exact each f there d set

/-- When all values that are made are documents, they make up a document. -/
theorem of_overlay_object (plain : overlay fill (.object ps) = .ofDocument j) :
    j = .object (ps.map fun p => (p.1, (fill p.1 p.2).formOrNull)) ∧
      ∀ p ∈ ps, fill p.1 p.2 = .ofDocument (fill p.1 p.2).formOrNull := by
  rw [overlay_object] at plain
  cases j with
  | map es =>
    rw [Value.ofDocument, Value.ofEntries_eq, Value.map.injEq] at plain
    rw [Document.object, Document.map.injEq, List.map_map]
    induction ps generalizing es with
    | nil =>
      obtain rfl : es = [] := by simpa using plain.symm
      exact ⟨rfl, by simp⟩
    | cons p ps ih =>
      cases es with
      | nil => cases plain
      | cons e es =>
        obtain ⟨k, x⟩ := e
        simp only [List.map_cons, List.cons.injEq, Prod.mk.injEq, Atom.scalar.injEq] at plain
        obtain ⟨⟨rfl, value⟩, rest⟩ := plain
        obtain ⟨same, each⟩ := ih es rest
        refine ⟨?_, List.forall_mem_cons.2 ⟨?_, each⟩⟩
        · simp [same, value]
        · rw [value, Value.formOrNull_ofDocument]
  | _ => cases plain

/-- If what is filled in is a document after all, it is filled in field by field. -/
theorem of_overlay_record (plain : overlay fill (record fields) = .ofDocument j) :
    j = record (fields.map fun f => (f.1, f.2.map fun d => (fill f.1 d).formOrNull)) ∧
      ∀ f ∈ fields, ∀ d ∈ f.2, fill f.1 d = .ofDocument (fill f.1 d).formOrNull := by
  obtain ⟨same, each⟩ := of_overlay_object plain
  refine ⟨?_, fun f member d set => each (f.1, d) (List.mem_filterMap.2 ⟨f, member, by simp_all⟩)⟩
  rw [same, record, List.map_filterMap, List.filterMap_map]
  simp [Function.comp_def]

/-- What is filled in has distinct keys if each field has. -/
theorem distinct_overlay (distinct : d.Distinct)
    (each : ∀ key x, Document.Distinct x → (fill key x).Distinct) : (overlay fill d).Distinct := by
  cases d with
  | map es =>
    obtain ⟨apart, values⟩ := Document.holds_map.1 distinct
    refine Value.distinct_map.2 ⟨?_, List.forall_mem_map.2 fun e member => ?_⟩
    · rw [← Value.apart_map_scalar, List.map_map] at apart
      rw [List.map_map]
      exact apart
    · dsimp only
      split
      · exact each _ _ (values e member)
      · exact Value.distinct_ofDocument.2 (values e member)
  | _ => exact Value.distinct_ofDocument.2 distinct

end

theorem openPart_context (v : Value) (d : Document) :
    openPart v "context" d = openContext (v.field "context") d := rfl

theorem openPart_nodes (v : Value) (d : Document) :
    openPart v "nodes" d = openNodes (v.field "nodes") d := rfl

/-! ## Open values of a document -/

/-- Where keys are apart, an entry is found under its key. -/
theorem Entries.get_of_mem {es : Entries} {key : String} {d : Document}
    (apart : Scalar.Apart (es.map Prod.fst)) (member : (Scalar.text key, d) ∈ es) :
    es.get key = d := by
  induction es with
  | nil => cases member
  | cons e es ih =>
    obtain ⟨k, x⟩ := e
    rw [List.map_cons, Scalar.Apart, List.pairwise_cons] at apart
    rcases List.mem_cons.1 member with same | member
    · cases same
      simp [get]
    · have unlike := apart.1 _ (List.mem_map_of_mem member)
      have ne : k ≠ .text key := by
        rintro rfl
        simp [Scalar.alike, Scalar.wholeValue?] at unlike
      have rest := ih apart.2 member
      simpa [get, ne] using rest

section

variable {source d j : Document} {ps : List (String × Document)}

/-- Where names are apart, a name chooses the field that it belongs to. -/
theorem firstOf_of_mem (names : (ps.map Prod.fst).Nodup) {p : String × Document} (member : p ∈ ps) :
    Value.firstOf (·.typed = .text p.1)
      (ps.map fun q => (.scalar (.text q.1), .ofDocument q.2)) = .ofDocument p.2 := by
  induction ps with
  | nil => cases member
  | cons q ps ih =>
    rw [List.map_cons, List.nodup_cons] at names
    rcases List.mem_cons.1 member with rfl | member
    · simp [Value.firstOf, Atom.typed]
    · have ne : q.1 ≠ p.1 := fun same => names.1 (same ▸ List.mem_map_of_mem member)
      simpa [Value.firstOf, Atom.typed, ne] using ih names.2 member

/-- A field of an object is found by its name. -/
theorem named_object (names : (ps.map Prod.fst).Nodup) {p : String × Document} (member : p ∈ ps) :
    (Value.ofDocument (.object ps)).named p.1 = .ofDocument p.2 := by
  -- The last entry of a name is the first of the entries in reverse.
  rw [ofDocument_object, Value.named, ← List.map_reverse]
  exact firstOf_of_mem (by simpa [List.nodup_reverse] using names) (by simpa using member)

/-- The context of a document is taken over as it is. -/
theorem openContext_ofDocument (distinct : source.Distinct)
    (read : Reading.mapOf .ok source = .ok ps) :
    openContext (.ofDocument source) (.object ps) = .ofDocument (.object ps) := by
  obtain ⟨es, rfl, same⟩ := Reading.mapOf_eq_ok.1 read
  obtain rfl : es = ps.map fun p => (.text p.1, p.2) := by
    rw [← List.map_id es]
    exact map_of_forall₂ same fun e p h => Prod.ext h.1 (Checked.ok.inj h.2)
  have names : (ps.map Prod.fst).Nodup := by
    rw [← Scalar.apart_map_text]
    simpa [Function.comp_def] using (Document.holds_map.1 distinct).1
  exact overlay_of_fixed fun _ member => named_object names member

/-- So are the data read of a document. -/
theorem openData_ofDocument {n : NodeData} (distinct : source.Distinct)
    (read : Reading.nodeData source = .ok n) :
    openData (.ofDocument source) n.document = .ofDocument n.document := by
  simp only [Reading.nodeData, Reading.record_eq_ok, Checked.functor_map_eq, Checked.seq_eq_ok,
    Checked.map_eq_ok, Checked.exists_exists_and_and, exists_eq_left'] at read
  obtain ⟨es, rfl, _, -, _, -, _, -, _, -, _, -, _, -, _, -, _, -, rest, unknown, rfl⟩ := read
  have sublist := Reading.sublist_otherData unknown
  have apart := (Document.holds_map.1 distinct).1
  refine overlay_record_of_fixed fun f member d set => ?_
  unfold openField
  split
  case isTrue => rfl
  case isFalse other =>
    rw [NodeData.fields, List.mem_append] at member
    rcases member with known | member
    · simp only [List.mem_cons, List.not_mem_nil, or_false] at known
      rcases known with rfl | rfl | rfl | rfl | rfl | rfl | rfl | rfl <;>
        exact absurd (.inl (by simp [Reading.dataFields])) other
    · obtain ⟨g, there, rfl⟩ := List.mem_map.1 member
      obtain rfl := Option.some.inj set
      have found := Entries.get_of_mem apart (sublist.subset (List.mem_map_of_mem there))
      rw [Value.field_ofDocument, found]

/-- And so are its nodes. -/
theorem openNode_ofDocument {n : FlowNode} (distinct : source.Distinct)
    (read : Reading.node source = .ok n) (r : Role) :
    openNode (.ofDocument source) { n with role := r }.document =
      .ofDocument { n with role := r }.document := by
  simp only [Reading.node, Reading.record_eq_ok, Checked.functor_map_eq, Checked.seq_eq_ok,
    Checked.map_eq_ok, Checked.exists_exists_and_and, exists_eq_left'] at read
  obtain ⟨es, rfl, id, -, role, -, position, -, data, told, rfl⟩ := read
  have opens : openData ((Value.ofDocument (.map es)).field "data") data.document =
      .ofDocument data.document := by
    obtain ⟨-, rfl⟩ | ⟨d, found, read⟩ := Reading.defaulting_eq_ok.1 told
    · rfl
    · rw [Value.field_ofDocument, Entries.get_of_get? found]
      exact openData_ofDocument (distinct.get? found) read
  refine overlay_of_fixed fun p member => ?_
  simp only [List.mem_cons, List.not_mem_nil, or_false] at member
  rcases member with rfl | rfl | rfl | rfl
  · rfl
  · rfl
  · rfl
  · exact opens

/-- All of them, in order. -/
theorem openItems_ofDocument {ds : List Document} {ns : List FlowNode}
    (distinct : ∀ d ∈ ds, d.Distinct)
    (read : List.Forall₂ (fun d n => Reading.node d = .ok n) ds ns) :
    openItems (ds.map .ofDocument) (ns.map fun n => n.withRole.document) =
      (ns.map fun n => n.withRole.document).map .ofDocument := by
  induction read with
  | nil => rfl
  | cons here _ ih =>
    obtain ⟨first, rest⟩ := List.forall_mem_cons.1 distinct
    rw [List.map_cons, List.map_cons, openItems, ih rest, List.map_cons]
    exact congrArg (· :: _) (openNode_ofDocument first here _)

/-- The open values of a flow are those of the document that it was read from. -/
theorem opened_ofDocument {f : Flow} (distinct : d.Distinct) (checked : Flow.check d = .ok f) :
    opened (.ofDocument d) f.normalize.document = .ofDocument f.normalize.document := by
  simp only [Flow.check, Checked.toExcept_eq_ok, Reading.flow, Reading.record_eq_ok,
    Checked.functor_map_eq, Checked.seq_eq_ok, Checked.map_eq_ok,
    Checked.exists_exists_and_and, exists_eq_left'] at checked
  obtain ⟨es, rfl, uri, -, id, -, info, -, context, given, globals, -, _, listed, edges, -, none, -,
    rfl⟩ := checked
  obtain ⟨nodes, found, listed⟩ := Reading.required_eq_ok.1 listed
  simp only [Reading.nodes, Checked.andThen_eq_ok, Reading.listOf_eq_ok] at listed
  obtain ⟨ns, ⟨ds, rfl, items⟩, least⟩ := listed
  obtain ⟨rfl, -⟩ := Reading.leastItems_eq_ok least
  refine overlay_record_of_fixed fun f member d set => ?_
  simp only [Flow.fields, Flow.normalize, List.mem_cons, List.not_mem_nil, or_false] at member
  rcases member with rfl | rfl | rfl | rfl | rfl | rfl | rfl
  · rfl
  · rfl
  · rfl
  · obtain ⟨-, rfl⟩ | ⟨e, ps, there, -, read, rfl⟩ := Reading.optional_eq_ok.1 given
    · cases set
    · obtain rfl := Option.some.inj set
      rw [openPart_context, Value.field_ofDocument, Entries.get_of_get? there]
      exact openContext_ofDocument (distinct.get? there) read
  · rfl
  · obtain rfl := Option.some.inj set
    have distinct := Document.holds_list.1 (distinct.get? found)
    rw [openPart_nodes, Value.field_ofDocument, Entries.get_of_get? found]
    have opens := openItems_ofDocument distinct items
    simpa [openNodes, Value.ofDocument, Value.items, Document.listOf, Function.comp_def] using opens
  · rfl

end

/-! ## Distinct keys -/

section

variable {v : Value} {d : Document}

theorem distinct_openContext (source : v.Distinct) (distinct : d.Distinct) :
    (openContext v d).Distinct :=
  distinct_overlay distinct fun key _ _ => source.named key

theorem distinct_openData (source : v.Distinct) (distinct : d.Distinct) :
    (openData v d).Distinct := by
  refine distinct_overlay distinct fun key x held => ?_
  unfold openField
  split
  · exact Value.distinct_ofDocument.2 held
  · exact source.field key

theorem distinct_openNode (source : v.Distinct) (distinct : d.Distinct) :
    (openNode v d).Distinct := by
  refine distinct_overlay distinct fun key x held => ?_
  split
  · exact distinct_openData (source.field "data") held
  · exact Value.distinct_ofDocument.2 held

theorem distinct_openItems {vs : List Value} {ds : List Document} (source : ∀ v ∈ vs, v.Distinct)
    (distinct : ∀ d ∈ ds, d.Distinct) : ∀ x ∈ openItems vs ds, x.Distinct := by
  induction ds generalizing vs with
  | nil => cases vs <;> simp [openItems]
  | cons d ds ih =>
    obtain ⟨first, rest⟩ := List.forall_mem_cons.1 distinct
    cases vs with
    | nil => simpa [openItems] using ⟨first, rest⟩
    | cons v vs =>
      obtain ⟨here, there⟩ := List.forall_mem_cons.1 source
      exact List.forall_mem_cons.2 ⟨distinct_openNode here first, ih there rest⟩

theorem distinct_openNodes (source : v.Distinct) (distinct : d.Distinct) :
    (openNodes v d).Distinct := by
  cases d with
  | list ds =>
    exact Value.distinct_list.2 (distinct_openItems source.items (Document.holds_list.1 distinct))
  | _ => exact Value.distinct_ofDocument.2 distinct

theorem distinct_opened (source : v.Distinct) (distinct : d.Distinct) : (opened v d).Distinct := by
  refine distinct_overlay distinct fun key x held => ?_
  unfold openPart
  split
  · exact distinct_openContext (source.field _) held
  · split
    · exact distinct_openNodes (source.field _) held
    · exact Value.distinct_ofDocument.2 held

end

/-! ## Open values that are documents -/

/-- The same node but for the fields that the format does not know. -/
structure FlowNode.Reopened (n m : FlowNode) : Prop where
  other : IsOther m.data.others
  same : m = { n with data := { n.data with others := m.data.others } }

section

variable {v : Value} {j : Document}

/-- A field that the format knows is not open. -/
theorem openField_of_known {key : String} (known : key ∈ Reading.dataFields) (d : Document) :
    openField v key d = .ofDocument d := by
  simp [openField, known]

/-- A field that is set stays set. -/
theorem isNull_openField {key : String} {d : Document} (set : !d.isNull) :
    !(openField v key d).isNull := by
  unfold openField
  split
  · simpa using set
  · simp_all

/-- Data that turn out to be a document are data again, with other unknown fields. -/
theorem exists_of_openData {n : NodeData} (other : IsOther n.others)
    (plain : openData v n.document = .ofDocument j) :
    ∃ rest, IsOther rest ∧ j = { n with others := rest }.document := by
  obtain ⟨rfl, each⟩ := of_overlay_record plain
  refine ⟨n.others.map fun p => (p.1, (openField v p.1 p.2).formOrNull), ⟨?_, ?_⟩, ?_⟩
  · exact List.forall_mem_map.2 other.fresh
  · refine List.forall_mem_map.2 fun p member => ?_
    have plain := each (p.1, some p.2)
      (List.mem_append_right _ (List.mem_map_of_mem member)) p.2 rfl
    rw [← Value.isNull_ofDocument, ← plain]
    exact isNull_openField (other.notNull p member)
  · have kept : ∀ key ∈ Reading.dataFields, ∀ d, (openField v key d).formOrNull = d := by
      intro key known d
      rw [openField_of_known known, Value.formOrNull_ofDocument]
    simp only [Reading.dataFields, List.forall_mem_cons] at kept
    simp [NodeData.document, NodeData.fields, kept, Function.comp_def]

/-- A node that turns out to be a document is the node reopened. -/
theorem exists_of_openNode {n : FlowNode} (other : IsOther n.data.others)
    (plain : openNode v n.document = .ofDocument j) : ∃ m, n.Reopened m ∧ j = m.document := by
  obtain ⟨rfl, each⟩ := of_overlay_object plain
  have opens := each ("data", n.data.document) (by simp)
  simp only [if_true] at opens
  obtain ⟨rest, others, same⟩ := exists_of_openData other opens
  refine ⟨{ n with data := { n.data with others := rest } }, ⟨others, rfl⟩, ?_⟩
  simp [FlowNode.document, same]

theorem exists_of_openItems {vs : List Value} {ns : List FlowNode} {js : List Document}
    (other : ∀ n ∈ ns, IsOther n.data.others)
    (plain : openItems vs (ns.map FlowNode.document) = js.map .ofDocument) :
    ∃ ms, List.Forall₂ FlowNode.Reopened ns ms ∧ js = ms.map FlowNode.document := by
  induction ns generalizing vs js with
  | nil =>
    obtain rfl : js = [] := by cases vs <;> simpa [openItems] using plain.symm
    exact ⟨[], .nil, rfl⟩
  | cons n ns ih =>
    obtain ⟨first, rest⟩ := List.forall_mem_cons.1 other
    cases vs with
    | nil =>
      refine ⟨n :: ns, List.forall₂_same.2 fun m member => ⟨other m member, rfl⟩, ?_⟩
      rw [openItems] at plain
      · exact (List.map_injective_iff.2 Value.ofDocument_injective plain).symm
      · simp
    | cons v vs =>
      cases js with
      | nil => cases plain
      | cons j js =>
        obtain ⟨here, there⟩ := List.cons.inj plain
        obtain ⟨m, reopened, rfl⟩ := exists_of_openNode first here
        obtain ⟨ms, others, rfl⟩ := ih rest there
        exact ⟨m :: ms, .cons reopened others, rfl⟩

/-- So for all nodes. -/
theorem exists_of_openNodes {ns : List FlowNode} (other : ∀ n ∈ ns, IsOther n.data.others)
    (plain : openNodes v (Document.listOf FlowNode.document ns) = .ofDocument j) :
    ∃ ms, List.Forall₂ FlowNode.Reopened ns ms ∧ j = Document.listOf FlowNode.document ms := by
  cases j with
  | list js =>
    rw [Document.listOf, openNodes, Value.ofDocument, Value.ofDocuments_eq, Value.list.injEq]
      at plain
    obtain ⟨ms, reopened, rfl⟩ := exists_of_openItems other plain
    exact ⟨ms, reopened, rfl⟩
  | _ => cases plain

/-- The document of a flow whose open values are documents is that of a flow with these. -/
theorem exists_of_opened {f : Flow} (other : ∀ n ∈ f.nodes, IsOther n.data.others)
    (plain : opened v f.document = .ofDocument j) :
    ∃ context ms, List.Forall₂ FlowNode.Reopened f.nodes ms ∧
      j = { f with context, nodes := ms }.document := by
  obtain ⟨rfl, each⟩ := of_overlay_record plain
  obtain ⟨ms, reopened, nodes⟩ := exists_of_openNodes other
    (each ("nodes", some (Document.listOf FlowNode.document f.nodes)) (by simp [Flow.fields]) _ rfl)
  obtain ⟨context, given⟩ : ∃ context : Option (List (String × Document)),
      f.context.map (fun ps => (openPart v "context" (.object ps)).formOrNull) =
        context.map .object := by
    cases same : f.context with
    | none => exact ⟨none, rfl⟩
    | some ps =>
      have part : openContext (v.field "context") (.object ps) = _ :=
        each ("context", some (.object ps)) (by simp [Flow.fields, same]) _ rfl
      exact ⟨some _, congrArg some (of_overlay_object part).1⟩
  have kept (key : String) (d : Document) (first : key ≠ "context") (second : key ≠ "nodes") :
      (openPart v key d).formOrNull = d := by
    simp [openPart, first, second]
  refine ⟨context, ms, reopened, ?_⟩
  simp [Flow.document, Flow.fields, kept, nodes, ← given, Function.comp_def]

end

/-! ## Reading flows again -/

/-- A reopened node has the role and the direct edges that it had. -/
theorem FlowNode.Reopened.fixed {m n : FlowNode} (reopened : m.withRole.Reopened n) :
    n.withRole = n ∧ n.directEdges = m.directEdges := by
  rw [reopened.same]
  exact ⟨rfl, rfl⟩

/-- A document that a loaded flow stands for is that of a normalized flow, and is read as this. -/
theorem Flow.exists_of_opened_normalize {d j : Document} {f : Flow} {v : Value}
    (checked : Flow.check d = .ok f) (plain : opened v f.normalize.document = .ofDocument j) :
    ∃ g, Flow.check j = .ok g ∧ g.normalize = g ∧ g.document = j := by
  have read := (Flow.parts_of_check checked).1
  have lawful := (Flow.shownIn_of_check checked).2
  have other : ∀ n ∈ f.nodes, IsOther n.data.others := fun n member =>
    have ⟨_, read⟩ := read n member
    Reading.isOther_of_node read
  obtain ⟨context, ms, reopened, rfl⟩ :=
    exists_of_opened (f := f.normalize) (List.forall_mem_map.2 other) plain
  have pairs : List.Forall₂ (fun n m => n.withRole.Reopened m) f.nodes ms := by
    simpa [Flow.normalize, List.forall₂_map_left_iff] using reopened
  have roles : ms.map FlowNode.withRole = ms := by
    refine (List.map_congr_left fun m member => ?_).trans (List.map_id' ms)
    obtain ⟨_, -, reopened⟩ := exists_of_mem_right pairs member
    exact reopened.fixed.1
  have edges : ms.flatMap FlowNode.directEdges = f.nodes.flatMap FlowNode.directEdges := by
    rw [List.flatMap_def, List.flatMap_def]
    exact congrArg List.flatten (map_of_forall₂ pairs.flip fun _ _ h => h.fixed.2)
  refine ⟨{ f.normalize with context, nodes := ms }, ?_, ?_, rfl⟩
  · refine Flow.check_rewritten checked context ?_ (fun m member => ?_) fun e member => ?_
    · have length := pairs.length_eq
      have some := lawful.someNode
      rintro rfl
      simp_all
    · obtain ⟨n, there, reopened⟩ := exists_of_mem_right pairs member
      obtain ⟨e, read⟩ := read n there
      rw [reopened.same]
      exact Reading.node_document read n.data.role reopened.other
    · obtain ⟨n, there, direct⟩ := List.mem_flatMap.1 member
      have named := Identifier.ne_empty_of_isIdentifier (lawful.nodes n there).id
      exact Reading.storedEdge_directEdge named direct
  · simp [Flow.normalize, roles, edges]

end Dialogue
