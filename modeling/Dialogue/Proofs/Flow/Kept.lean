import Dialogue.Proofs.Document.Holds
import Dialogue.Proofs.Flow.Reread
import Dialogue.Proofs.Json.RoundTrip
import Dialogue.Proofs.Number.Lenient

/-!
# What a flow keeps of its document

The document of a flow consists of what the format prescribes and of values that it takes over from
the document that the flow was read from. Whatever holds all through that document and is true of
the prescribed parts holds all through the flow's own.
-/

namespace Dialogue

open Document (record listOf Holds holds_scalar holds_list holds_map)

variable {α β : Type} {S : Scalar → Prop} {M : List Scalar → Prop}

/-- The conditions admit what a flow writes by itself. -/
structure Admits (S : Scalar → Prop) (M : List Scalar → Prop) : Prop where
  text : ∀ s, S (.text s)
  bool : ∀ b, S (.bool b)
  float : ∀ x, S (.float x)
  int : ∀ n, (Scalar.int n).Writable → S (.int n)
  names : ∀ names : List String, names.Nodup → M (names.map .text)
  apart : ∀ ks, M ks → Scalar.Apart ks

namespace Admits

/-! ## Records -/

/-- An object is in order when its names differ and its values are. -/
theorem object (admits : Admits S M) {fields : List (String × Document)}
    (names : (fields.map Prod.fst).Nodup) (values : ∀ f ∈ fields, f.2.Holds S M) :
    (Document.object fields).Holds S M := by
  refine holds_map.2 ⟨?_, List.forall_mem_map.2 values⟩
  have keys : (fields.map fun f => (Scalar.text f.1, f.2)).map Prod.fst =
      (fields.map Prod.fst).map .text := by
    simp
  rw [keys]
  exact admits.names _ names

/-- So is a record, absent fields aside. -/
theorem record (admits : Admits S M) {fields : List (String × Option Document)}
    (names : (fields.map Prod.fst).Nodup) (values : ∀ f ∈ fields, ∀ d ∈ f.2, d.Holds S M) :
    (Document.record fields).Holds S M := by
  refine admits.object ?_ fun f member => ?_
  · have sub : ((fields.filterMap fun f => f.2.map fun d => (f.1, d)).map Prod.fst).Sublist
        (fields.map Prod.fst) := by
      clear names values
      induction fields with
      | nil => simp
      | cons f fields ih =>
        obtain ⟨k, o⟩ := f
        cases o with
        | none => exact ih.cons _
        | some d => exact ih.cons_cons _
    exact names.sublist sub
  · obtain ⟨g, there, same⟩ := List.mem_filterMap.1 member
    obtain ⟨d, set, rfl⟩ := Option.map_eq_some_iff.1 same
    exact values g there d set

theorem listOf {write : α → Document} {as : List α} (each : ∀ a ∈ as, (write a).Holds S M) :
    (Document.listOf write as).Holds S M := by
  simpa [Document.listOf] using each

end Admits

namespace Reading

/-- What holds all through a document holds all through what is read of it, once it is written. -/
def Keeps (S : Scalar → Prop) (M : List Scalar → Prop) (read : Reading α) (write : α → Document) :
    Prop :=
  ∀ (d : Document) (a : α), d.Holds S M → read d = .ok a → (write a).Holds S M

variable {read : Reading α} {write : α → Document}

/-- Reading an optional field keeps what holds of the map. -/
theorem Keeps.optional (keeps : Keeps S M read write) {es : Entries} {key : String} {o : Option α}
    (holds : (Document.map es).Holds S M) (h : optional es key read = .ok o) :
    ∀ d ∈ o.map write, d.Holds S M := by
  obtain ⟨-, rfl⟩ | ⟨d, a, found, -, read, rfl⟩ := optional_eq_ok.1 h
  · simp
  · simpa using keeps d a (holds.get? found) read

/-- Reading a list keeps what holds of its items. -/
theorem Keeps.listOf (keeps : Keeps S M read write) :
    Keeps S M (listOf read) (Document.listOf write) := by
  intro d as holds h
  obtain ⟨ds, rfl, items⟩ := listOf_eq_ok.1 h
  refine Admits.listOf fun a member => ?_
  obtain ⟨d, there, read⟩ := exists_of_mem_right items member
  exact keeps d a (holds_list.1 holds d there) read

/-- The keys stay as they are. -/
theorem Keeps.mapOf (keeps : Keeps S M read write) :
    Keeps S M (mapOf read) fun ps => .object (ps.map fun p => (p.1, write p.2)) := by
  intro d ps holds h
  obtain ⟨es, rfl, entries⟩ := mapOf_eq_ok.1 h
  obtain ⟨keys, values⟩ := holds_map.1 holds
  have same : es.map Prod.fst = ps.map fun p => Scalar.text p.1 :=
    map_of_forall₂ entries fun e p h => h.1
  refine holds_map.2 ⟨?_, ?_⟩
  · rw [same] at keys
    simpa [Function.comp_def] using keys
  · simp only [List.forall_mem_map]
    intro p member
    obtain ⟨e, there, -, read⟩ := exists_of_mem_right entries member
    exact keeps e.2 p.2 (values e there) read

section

variable (admits : Admits S M)
include admits

/-! ## Numbers -/

theorem keeps_whole : Keeps S M whole fun n => .int n := by
  intro d n holds h
  have small {n : Int} (short : n.natAbs < 10 ^ 20) : (Document.int n).Holds S M := by
    refine holds_scalar.2 (admits.int n ?_)
    exact (Nat.toDigits_length 10 _ 20 (by decide) short).trans (by decide)
  unfold whole at h
  split at h
  case h_1 =>
    obtain rfl := Checked.ok.inj h
    exact holds
  case h_2 b =>
    obtain rfl := Checked.ok.inj h
    exact small (by cases b <;> decide)
  case h_3 x =>
    unfold wholeOfFloat at h
    split at h
    · cases h
    · split at h
      · cases h
      · split at h
        case isTrue bounds =>
          obtain rfl := Checked.ok.inj h
          unfold wordBound at bounds
          exact small (by omega)
        case isFalse => cases h
  case h_4 s =>
    unfold wholeOfText at h
    split at h
    case h_1 m read =>
      obtain rfl := Checked.ok.inj h
      exact holds_scalar.2 (admits.int _ (Number.length_of_lenientInt read))
    all_goals cases h
  case h_5 => cases h
  case h_6 => cases h

omit admits in
theorem firstOf_eq_ok {branches : List (String × Checked α)} {a : α}
    (h : firstOf branches = .ok a) : ∃ b ∈ branches, b.2 = .ok a := by
  unfold firstOf at h
  dsimp only at h
  split at h
  case h_1 found =>
    obtain rfl := Checked.ok.inj h
    obtain ⟨b, member, read⟩ := List.exists_of_findSome?_eq_some found
    split at read
    case h_1 c same =>
      obtain rfl := Option.some.inj read
      exact ⟨b, member, same⟩
    case h_2 => cases read
  case h_2 => cases h

/-- Each way to read a quantity keeps what holds of the value. -/
theorem keeps_quantityBranches {d : Document} (holds : d.Holds S M) {b : String × Checked Quantity}
    (member : b ∈ quantityBranches d) {q : Quantity} (read : b.2 = .ok q) :
    q.document.Holds S M := by
  simp only [quantityBranches, List.mem_cons, List.not_mem_nil, or_false] at member
  obtain rfl | rfl := member
  · obtain ⟨n, whole, rfl⟩ := Checked.map_eq_ok.1 read
    exact keeps_whole admits d n holds whole
  · obtain ⟨x, -, rfl⟩ := Checked.map_eq_ok.1 read
    exact holds_scalar.2 (admits.float x)

theorem keeps_quantity : Keeps S M quantity Quantity.document := by
  intro d q holds h
  unfold quantity at h
  split at h
  case h_1 x =>
    obtain rfl := Checked.ok.inj h
    exact holds_scalar.2 (admits.float x)
  case h_2 =>
    obtain ⟨b, member, read⟩ := firstOf_eq_ok h
    exact keeps_quantityBranches admits holds member read

theorem keeps_choice : Keeps S M choice Choice.document := by
  intro d c holds h
  unfold choice at h
  split at h
  case h_1 x =>
    obtain rfl := Checked.ok.inj h
    exact holds_scalar.2 (admits.float x)
  case h_2 =>
    obtain ⟨b, member, read⟩ := firstOf_eq_ok h
    rcases List.mem_cons.1 member with rfl | member
    · obtain ⟨s, -, rfl⟩ := Checked.map_eq_ok.1 read
      exact holds_scalar.2 (admits.text s)
    · obtain ⟨b, there, rfl⟩ := List.mem_map.1 member
      obtain ⟨q, number, rfl⟩ := Checked.map_eq_ok.1 read
      exact keeps_quantityBranches admits holds there number

/-! ## Records of texts and floats -/

theorem holds_position (p : Position) : p.document.Holds S M :=
  admits.object (by simp) (by simp [admits.float])

theorem holds_message (m : Message) : m.document.Holds S M :=
  admits.object (by simp) (by simp [admits.text])

theorem holds_condition (c : Condition) : c.document.Holds S M :=
  admits.object (by simp) (by simp [admits.text])

theorem holds_decision (d : Decision) : d.document.Holds S M :=
  admits.record (by simp [Decision.fields]) (by
    simp [Decision.fields, admits.text, holds_position admits,
      Admits.listOf fun c _ => holds_condition admits c])

theorem holds_action (a : Action) : a.document.Holds S M :=
  admits.record (by simp) (by simp [admits.text])

theorem holds_contextStrategy (s : ContextStrategy) : s.document.Holds S M :=
  admits.record (by simp) (by simp [admits.text])

theorem holds_info (m : Meta) : m.document.Holds S M :=
  admits.record (by simp) (by simp [admits.text])

theorem holds_directEdge {n : FlowNode} {e : StoredEdge} (direct : e ∈ n.directEdges) :
    e.document.Holds S M := by
  obtain ⟨f, -, made⟩ := List.mem_filterMap.1 direct
  obtain ⟨target, -, rfl⟩ := Option.map_eq_some_iff.1 made
  exact admits.record (by simp) (by simp [admits.text])

/-! ## Records with values of the document -/

theorem keeps_property : Keeps S M property Property.document := by
  intro d p holds h
  simp only [property, record_eq_ok, Checked.functor_map_eq, Checked.seq_eq_ok, Checked.map_eq_ok,
    Checked.exists_exists_and_and, exists_eq_left'] at h
  obtain ⟨es, rfl, type, -, description, -, choices, chosen, minimum, least, maximum, most, pattern,
    -, rfl⟩ := h
  have choices := (keeps_choice admits).listOf.optional holds chosen
  have minimum := (keeps_quantity admits).optional holds least
  have maximum := (keeps_quantity admits).optional holds most
  refine admits.record (by simp) ?_
  simp only [List.forall_mem_cons]
  exact ⟨by simp [admits.text], by simp [admits.text], choices, minimum, maximum,
    by simp [admits.text], by simp⟩

theorem keeps_properties :
    Keeps S M properties fun ps => .object (ps.map fun p => (p.1, p.2.document)) := by
  intro d ps holds h
  exact (keeps_property admits).mapOf d ps holds (properties_eq_ok.1 h).1

theorem holds_signatureOf {es : Entries} {s : Signature} (holds : (Document.map es).Holds S M)
    (h : signatureOf es = .ok s) : ∀ f ∈ s.fields, ∀ d ∈ f.2, d.Holds S M := by
  simp only [signatureOf, Checked.functor_map_eq, Checked.seq_eq_ok, Checked.map_eq_ok,
    Checked.exists_exists_and_and, exists_eq_left'] at h
  obtain ⟨name, -, description, -, ps, taken, required, -, rfl⟩ := h
  have properties := (keeps_properties admits).optional holds taken
  simp only [Signature.fields, List.forall_mem_cons]
  refine ⟨by simp [admits.text], by simp [admits.text], properties, ?_, by simp⟩
  simp [Admits.listOf fun s _ => holds_scalar.2 (admits.text s)]

theorem keeps_globalFunction : Keeps S M globalFunction Signature.document := by
  intro d s holds h
  obtain ⟨es, rfl, h⟩ := record_eq_ok.1 h
  exact admits.record (by simp [Signature.fields]) (holds_signatureOf admits holds h)

theorem keeps_nodeFunction : Keeps S M nodeFunction NodeFunction.document := by
  intro d f holds h
  simp only [nodeFunction, record_eq_ok, Checked.functor_map_eq, Checked.seq_eq_ok,
    Checked.map_eq_ok, Checked.exists_exists_and_and, exists_eq_left'] at h
  obtain ⟨es, rfl, signature, signed, target, -, decision, -, rfl⟩ := h
  refine admits.record (by simp [NodeFunction.fields, Signature.fields]) ?_
  simp only [NodeFunction.fields, List.forall_mem_append, List.forall_mem_cons]
  exact ⟨holds_signatureOf admits holds signed, by simp [admits.text],
    by simp [holds_decision admits], by simp⟩

omit admits in
/-- The fields that the format does not know come in the order of the document. -/
theorem sublist_otherData {es : Entries} {rest : List (String × Document)}
    (h : otherData es = .ok rest) :
    (rest.map fun f => (Scalar.text f.1, f.2)).Sublist es := by
  obtain ⟨all, known, rfl⟩ := Checked.map_eq_ok.1 h
  obtain ⟨opts, items, rfl⟩ := Checked.map_eq_ok.1 known
  rw [Checked.all_eq_ok, List.forall₂_map_left_iff] at items
  have kept : ((opts.filterMap id).map fun f => (Scalar.text f.1, f.2)).Sublist es := by
    clear h known
    induction items with
    | nil => simp
    | @cons e o es opts one _ ih =>
      obtain ⟨k, d⟩ := e
      dsimp only at one
      split at one
      case h_1 s =>
        split at one
        · obtain rfl := Checked.ok.inj one
          exact ih.cons _
        · obtain rfl := Checked.ok.inj one
          exact ih.cons_cons _
      case h_2 => simp at one
  exact (List.filter_sublist.map _).trans kept

theorem keeps_nodeData : Keeps S M nodeData NodeData.document := by
  intro d n holds h
  simp only [nodeData, record_eq_ok, Checked.functor_map_eq, Checked.seq_eq_ok, Checked.map_eq_ok,
    Checked.exists_exists_and_and, exists_eq_left'] at h
  obtain ⟨es, rfl, label, -, roleMessages, -, taskMessages, -, functions, called, preActions, -,
    postActions, -, strategy, -, respond, -, rest, unknown, rfl⟩ := h
  have functions := (keeps_nodeFunction admits).listOf.optional holds called
  have sublist := sublist_otherData unknown
  obtain ⟨keys, values⟩ := holds_map.1 holds
  have fresh := fresh_of_otherData unknown
  have names : (rest.map Prod.fst).Nodup := by
    have apart := (admits.apart _ keys).sublist (sublist.map Prod.fst)
    rw [← Scalar.apart_map_text]
    simpa [Function.comp_def] using apart
  refine admits.record ?_ ?_
  · have others : (rest.map fun f => (f.1, some f.2)).map Prod.fst = rest.map Prod.fst := by simp
    rw [NodeData.fields, List.map_append, others, List.nodup_append']
    refine ⟨by simp, names, fun key known other => ?_⟩
    obtain ⟨f, member, rfl⟩ := List.mem_map.1 other
    exact fresh f member (by simpa [dataFields] using known)
  · simp only [NodeData.fields, List.forall_mem_append, List.forall_mem_cons, List.forall_mem_map]
    refine ⟨⟨by simp [admits.text], ?_, ?_, functions, ?_, ?_, ?_, ?_, by simp⟩, ?_⟩
    · simp [Admits.listOf fun m _ => holds_message admits m]
    · simp [Admits.listOf fun m _ => holds_message admits m]
    · simp [Admits.listOf fun a _ => holds_action admits a]
    · simp [Admits.listOf fun a _ => holds_action admits a]
    · simp [holds_contextStrategy admits]
    · cases respond <;> simp [admits.bool]
    · intro f member d same
      obtain rfl := Option.some.inj same
      exact values _ (sublist.subset (List.mem_map_of_mem member))

theorem keeps_node {d : Document} {n : FlowNode} (holds : d.Holds S M) (h : node d = .ok n)
    (r : Role) : ({ n with role := r } : FlowNode).document.Holds S M := by
  simp only [node, record_eq_ok, Checked.functor_map_eq, Checked.seq_eq_ok, Checked.map_eq_ok,
    Checked.exists_exists_and_and, exists_eq_left'] at h
  obtain ⟨es, rfl, id, -, role, -, position, -, data, told, rfl⟩ := h
  have data : data.document.Holds S M := by
    obtain ⟨-, rfl⟩ | ⟨d, found, read⟩ := defaulting_eq_ok.1 told
    · exact admits.record (by decide) (by simp [NodeData.fields])
    · exact keeps_nodeData admits d data (holds.get? found) read
  exact admits.object (by simp) (by simp [admits.text, holds_position admits, data])

end
end Reading

/-- Whatever holds all through a document holds all through that of the normalized flow. -/
theorem Flow.holds_normalize (admits : Admits S M) {d : Document} {f : Flow} (holds : d.Holds S M)
    (h : Flow.check d = .ok f) : f.normalize.document.Holds S M := by
  simp only [Flow.check, Checked.toExcept_eq_ok, Reading.flow, Reading.record_eq_ok,
    Checked.functor_map_eq, Checked.seq_eq_ok, Checked.map_eq_ok,
    Checked.exists_exists_and_and, exists_eq_left'] at h
  obtain ⟨es, rfl, uri, -, id, -, info, -, context, given, globals, shared, _, listed, edges, -,
    none, -, rfl⟩ := h
  have any : Reading.Keeps S M (.ok : Reading Document) fun d => d := by
    intro d a holds h
    obtain rfl := Checked.ok.inj h
    exact holds
  have context := any.mapOf.optional holds given
  have globals := (Reading.keeps_globalFunction admits).listOf.optional holds shared
  obtain ⟨d, found, listed⟩ := Reading.required_eq_ok.1 listed
  have holds := holds.get? found
  simp only [Reading.nodes, Checked.andThen_eq_ok, Reading.listOf_eq_ok] at listed
  obtain ⟨ns, ⟨ds, rfl, items⟩, least⟩ := listed
  obtain ⟨rfl, -⟩ := Reading.leastItems_eq_ok least
  refine admits.record (by simp [Flow.fields]) ?_
  simp only [Flow.fields, Flow.normalize, List.forall_mem_cons]
  refine ⟨by simp [admits.text], by simp [admits.text], by simp [Reading.holds_info admits],
    by simpa using context, globals, ?_, ?_, by simp⟩
  · have nodes : (listOf FlowNode.document (ns.map FlowNode.withRole)).Holds S M := by
      refine Admits.listOf fun n member => ?_
      obtain ⟨m, there, rfl⟩ := List.mem_map.1 member
      obtain ⟨d, among, read⟩ := exists_of_mem_right items there
      exact Reading.keeps_node admits (holds_list.1 holds d among) read _
    simpa using nodes
  · have edges : (listOf StoredEdge.document (ns.flatMap FlowNode.directEdges)).Holds S M := by
      refine Admits.listOf fun e member => ?_
      obtain ⟨n, -, direct⟩ := List.mem_flatMap.1 member
      exact Reading.holds_directEdge admits direct
    simpa using edges

end Dialogue
