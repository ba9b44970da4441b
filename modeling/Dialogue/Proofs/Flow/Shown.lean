import Dialogue.Edit.Retarget
import Dialogue.Flow.Normal
import Dialogue.Proofs.Document.Entries
import Dialogue.Proofs.Flow.Checked

/-!
# Documents that show a flow

A document shows a flow when the ids, names, routes and roles stand in it that the flow has. What
the graph, the checks and the edits read of a document is then what the flow says, whatever else the
document holds. A flow is shown by the document it is read from and by the one it is written as.
-/

namespace Dialogue

variable {α : Type}

/-- The value is a list of items that show others one by one, or null for none. -/
def Document.Lists (shows : Document → α → Prop) (d : Document) (as : List α) : Prop :=
  d = .null ∧ as = [] ∨ ∃ ds, d = .list ds ∧ List.Forall₂ shows ds as

/-- The value is a map, or null for one without entries. -/
def Document.Maps (d : Document) (es : Entries) : Prop := d = .null ∧ es = [] ∨ d = .map es

@[simp] theorem Scalar.alike_text (s t : String) : Scalar.alike (.text s) (.text t) = (s == t) := by
  simp [Scalar.alike, Scalar.wholeValue?]

/-- Only the text itself compares as equal to a text. -/
theorem Scalar.alike_text_iff {a : Scalar} {s : String} : a.alike (.text s) ↔ a = .text s := by
  cases a with
  | float x => cases h : Number.wholeValue? x <;> simp [Scalar.alike, Scalar.wholeValue?, h]
  | _ => simp [Scalar.alike, Scalar.wholeValue?]

/-- Only a text is alike to a text. -/
theorem Document.isText_iff {d : Document} {s : String} : d.isText s ↔ d = .text s := by
  cases d <;> simp [isText, alike, Scalar.alike_text_iff]

theorem Document.exists_of_isMap {d : Document} (isMap : d.isMap) : ∃ es, d = .map es := by
  cases d with
  | map es => exact ⟨es, rfl⟩
  | _ => cases isMap

@[simp] theorem Document.isText_text (s t : String) : (Document.text s).isText t = (s == t) :=
  Scalar.alike_text s t

@[simp] theorem Document.elementsOrNone_list (ds : List Document) :
    (Document.list ds).elementsOrNone = .ok ds := by
  cases ds <;> rfl

/-- Items that are listed can be gone through. -/
theorem Document.Lists.elementsOrNone {shows : Document → α → Prop} {d : Document} {as : List α}
    (h : d.Lists shows as) : ∃ ds, d.elementsOrNone = .ok ds ∧ List.Forall₂ shows ds as := by
  obtain ⟨rfl, rfl⟩ | ⟨ds, rfl, items⟩ := h
  · exact ⟨[], rfl, .nil⟩
  · exact ⟨ds, elementsOrNone_list ds, items⟩

/-- What lists items may be known by less about each. -/
theorem Document.Lists.imp {shows shows' : Document → α → Prop} {d : Document} {as : List α}
    (weaker : ∀ d a, shows d a → shows' d a) (h : d.Lists shows as) : d.Lists shows' as :=
  h.imp_right fun ⟨ds, same, items⟩ => ⟨ds, same, items.imp weaker⟩

theorem Document.Lists.forall_mem {holds : α → Prop} {d : Document} {as : List α}
    (h : d.Lists (fun _ a => holds a) as) : ∀ a ∈ as, holds a := by
  obtain ⟨rfl, rfl⟩ | ⟨ds, rfl, items⟩ := h
  · nofun
  · exact fun a member => (exists_of_mem_right items member).elim fun _ h => h.2

/-- A list of items counts as true unless it is empty. -/
theorem Document.Lists.isTrue {shows : Document → α → Prop} {d : Document} {as : List α}
    (h : d.Lists shows as) : d.isTrue = !as.isEmpty := by
  obtain ⟨rfl, rfl⟩ | ⟨ds, rfl, items⟩ := h
  · rfl
  · cases items <;> rfl

theorem Document.Maps.entriesOrNone {d : Document} {es : Entries} (h : d.Maps es) :
    d.entriesOrNone = .ok es := by
  obtain ⟨rfl, rfl⟩ | rfl := h
  · rfl
  · cases es <;> rfl

/-! ## What is shown -/

def Condition.ShownIn (d : Document) (c : Condition) : Prop :=
  ∃ es : Entries, d = .map es ∧ es.get targetKey = .text c.target

structure Decision.ShownBy (es : Entries) (d : Decision) : Prop where
  fallback : es.get fallbackKey = .text d.fallback
  conditions : (es.get "conditions").Lists Condition.ShownIn d.conditions

/-- A value that is null, or a map that shows the decision. -/
def Decision.OptionalIn (value : Document) : Option Decision → Prop
  | none => value = .null
  | some d => ∃ es : Entries, value = .map es ∧ d.ShownBy es

structure NodeFunction.ShownBy (es : Entries) (f : NodeFunction) : Prop where
  name : es.get "name" = .text f.name
  target : es.get targetKey = .ofOption (f.target.map .text)
  decision : Decision.OptionalIn (es.get "decision") f.decision

def NodeFunction.ShownIn (d : Document) (f : NodeFunction) : Prop :=
  ∃ es : Entries, d = .map es ∧ f.ShownBy es

def Action.ShownIn (d : Document) (a : Action) : Prop :=
  ∃ es : Entries, d = .map es ∧ es.get "type" = .text a.type

structure NodeData.ShownBy (es : Entries) (d : NodeData) : Prop where
  functions : (es.get "functions").Lists NodeFunction.ShownIn d.functionList
  role : Role.derive (.map es) = .ok d.role

structure FlowNode.ShownBy (es : Entries) (n : FlowNode) : Prop where
  id : es.get? "id" = some (.text n.id)
  data : ∃ ds, (es.get "data").Maps ds ∧ n.data.ShownBy ds

def FlowNode.ShownIn (d : Document) (n : FlowNode) : Prop :=
  ∃ es : Entries, d = .map es ∧ n.ShownBy es

structure StoredEdge.ShownBy (es : Entries) (e : StoredEdge) : Prop where
  source : es.get "source" = .text e.source
  target : es.get "target" = .text e.target

def StoredEdge.ShownIn (d : Document) (e : StoredEdge) : Prop :=
  ∃ es : Entries, d = .map es ∧ e.ShownBy es

structure Flow.ShownBy (es : Entries) (f : Flow) : Prop where
  nodes : ∃ ds, es.get "nodes" = .list ds ∧ List.Forall₂ FlowNode.ShownIn ds f.nodes
  edges : (es.get "edges").Lists StoredEdge.ShownIn f.edges

def Flow.ShownIn (d : Document) (f : Flow) : Prop := ∃ es : Entries, d = .map es ∧ f.ShownBy es

/-- The role is read off the actions and messages that stand in the data. -/
theorem NodeData.derive_of_shown {es : Entries} {n : NodeData} {R : Document → Message → Prop}
    (actions : (es.get "post_actions").Lists Action.ShownIn (n.postActions.getD []))
    (messages : (es.get "role_messages").Lists R (n.roleMessages.getD [])) :
    Role.derive (.map es) = .ok n.role := by
  obtain ⟨ds, read, items⟩ := actions.elementsOrNone
  have ends : ds.any Role.endsConversation =
      (n.postActions.getD []).any fun a => a.type = Role.endConversation :=
    any_of_forall₂ items fun d a ⟨es, same, type⟩ => by simp [same, Role.endsConversation, type]
  simp only [Role.derive, read, ok_bind, pure_eq_ok, ends, messages.isTrue, NodeData.role]
  cases (n.roleMessages.getD []).isEmpty <;> rfl

/-! ## Lawful flows -/

/-- Ids and names are identifiers, and unknown fields are not called like known ones. -/
structure FlowNode.Lawful (n : FlowNode) : Prop where
  id : Identifier.isIdentifier n.id
  names : ∀ f ∈ n.data.functionList, Identifier.isIdentifier f.name
  others : ∀ o ∈ n.data.others, o.1 ∉ Reading.dataFields

structure Flow.Lawful (f : Flow) : Prop where
  nodes : ∀ n ∈ f.nodes, n.Lawful
  someNode : f.nodes ≠ []

/-! ## Read flows -/

namespace Reading

variable {d : Document} {es : Entries}

/-- A list with enough items is left as it is. -/
theorem leastItems_eq_ok {least : Nat} {xs ys : List α} (h : leastItems least xs = .ok ys) :
    xs = ys ∧ least ≤ xs.length := by
  unfold leastItems at h
  split at h
  · cases h
  · exact ⟨Checked.ok.inj h, by omega⟩

/-- A list that was read lists what was read. -/
theorem lists_of_listOf {read : Reading α} {shows : Document → α → Prop} {as : List α}
    (shown : ∀ d a, read d = .ok a → shows d a) (h : listOf read d = .ok as) :
    d.Lists shows as := by
  obtain ⟨ds, rfl, items⟩ := listOf_eq_ok.1 h
  exact .inr ⟨ds, rfl, items.imp shown⟩

/-- A list that may be left out, as what it holds or nothing. -/
theorem lists_of_optional {key : String} {read : Reading α} {R : Document → α → Prop}
    {o : Option (List α)} (shown : ∀ d a, read d = .ok a → R d a)
    (h : optional es key (listOf read) = .ok o) : (es.get key).Lists R (o.getD []) := by
  obtain ⟨absent, rfl⟩ | ⟨d, as, found, -, read, rfl⟩ := optional_eq_ok.1 h
  · exact .inl ⟨absent, rfl⟩
  · rw [Entries.get_of_get? found]
    exact lists_of_listOf shown read

/-- So does a list that may be absent. -/
theorem lists_of_defaulting {key : String} {read : Reading α} {shows : Document → α → Prop}
    {as : List α} (shown : ∀ d a, read d = .ok a → shows d a)
    (h : defaulting es key [] (listOf read) = .ok as) : (es.get key).Lists shows as := by
  obtain ⟨absent, rfl⟩ | ⟨d, found, h⟩ := defaulting_eq_ok.1 h
  · exact .inl ⟨by simp [Entries.get, absent], rfl⟩
  · rw [Entries.get_of_get? found]
    exact lists_of_listOf shown h

theorem shownIn_of_condition {c : Condition} (h : condition d = .ok c) : c.ShownIn d := by
  simp only [condition, record_eq_ok] at h
  obtain ⟨es, rfl, h⟩ := h
  simp only [Checked.functor_map_eq, Checked.seq_eq_ok, Checked.map_eq_ok,
    Checked.exists_exists_and_and, exists_eq_left', required_eq_ok, someText_eq_ok] at h
  obtain ⟨_, -, operator, -, _, -, value, -, _, found, target, ⟨rfl, -⟩, rfl⟩ := h
  exact ⟨es, rfl, Entries.get_of_get? found⟩

/-- A decision that was read is shown by the fields it was read of. -/
theorem shownBy_of_decision {x : Decision} (h : decision d = .ok x) :
    ∃ es : Entries, d = .map es ∧ x.ShownBy es := by
  simp only [decision, record_eq_ok] at h
  obtain ⟨es, rfl, h⟩ := h
  simp only [Checked.functor_map_eq, Checked.seq_eq_ok, Checked.map_eq_ok,
    Checked.exists_exists_and_and, exists_eq_left', required_eq_ok, someText_eq_ok] at h
  obtain ⟨_, -, action, -, conditions, items, _, found, fallback, ⟨rfl, -⟩, position, -, rfl⟩ := h
  exact ⟨es, rfl, Entries.get_of_get? found,
    lists_of_defaulting (fun _ _ => shownIn_of_condition) items⟩

theorem optionalIn_of_decision {o : Option Decision} {key : String}
    (h : optional es key decision = .ok o) : Decision.OptionalIn (es.get key) o := by
  obtain ⟨absent, rfl⟩ | ⟨d, x, found, -, read, rfl⟩ := optional_eq_ok.1 h
  · exact absent
  · rw [Entries.get_of_get? found]
    exact shownBy_of_decision read

/-- A function is called by an identifier. -/
theorem name_of_signature {s : Signature} (h : signatureOf es = .ok s) :
    es.get "name" = .text s.name ∧ Identifier.isIdentifier s.name := by
  simp only [signatureOf, Checked.functor_map_eq, Checked.seq_eq_ok, Checked.map_eq_ok,
    Checked.exists_exists_and_and, exists_eq_left', required_eq_ok, nameOf_eq_ok] at h
  obtain ⟨_, found, name, ⟨rfl, valid⟩, _, -, description, -, properties, -, required, -, rfl⟩ := h
  exact ⟨Entries.get_of_get? found, valid⟩

/-- A function that was read is shown where it was read. -/
theorem shownIn_of_nodeFunction {f : NodeFunction} (h : nodeFunction d = .ok f) :
    f.ShownIn d ∧ Identifier.isIdentifier f.name := by
  simp only [nodeFunction, record_eq_ok] at h
  obtain ⟨es, rfl, h⟩ := h
  simp only [Checked.functor_map_eq, Checked.seq_eq_ok, Checked.map_eq_ok,
    Checked.exists_exists_and_and, exists_eq_left'] at h
  obtain ⟨signature, named, target, target_read, decision, decided, rfl⟩ := h
  obtain ⟨name, valid⟩ := name_of_signature named
  refine ⟨⟨es, rfl, name, ?_, optionalIn_of_decision decided⟩, valid⟩
  obtain ⟨absent, rfl⟩ | ⟨d, t, found, -, h, rfl⟩ := optional_eq_ok.1 target_read
  · exact absent
  · obtain rfl := text_eq_ok.1 h
    exact Entries.get_of_get? found

theorem shownIn_of_action {a : Action} (h : action d = .ok a) : a.ShownIn d := by
  simp only [action, record_eq_ok] at h
  obtain ⟨es, rfl, h⟩ := h
  simp only [Checked.functor_map_eq, Checked.seq_eq_ok, Checked.map_eq_ok,
    Checked.exists_exists_and_and, exists_eq_left', required_eq_ok, text_eq_ok] at h
  obtain ⟨_, found, type, rfl, handler, -, text, -, rfl⟩ := h
  exact ⟨es, rfl, Entries.get_of_get? found⟩

/-- Other data are under names that the format does not know. -/
theorem fresh_of_otherData {fields : List (String × Document)} (h : otherData es = .ok fields) :
    ∀ f ∈ fields, f.1 ∉ dataFields := by
  simp only [otherData, others, Checked.map_eq_ok, Checked.all_eq_ok, List.forall₂_map_left_iff]
    at h
  obtain ⟨_, ⟨kept, items, rfl⟩, rfl⟩ := h
  intro f member
  simp only [List.mem_filter, List.mem_filterMap, id_eq, exists_eq_right] at member
  obtain ⟨⟨key, value⟩, -, h⟩ := exists_of_mem_right items member.1
  split at h
  case h_2 => simp at h
  case h_1 k _ =>
    obtain rfl | same := eq_or_ne k f.1
    · intro known
      simp [known] at h
    · split at h <;> simp_all [Prod.ext_iff]

/-- The readings of a node's data that its functions, its role and its other fields come from. -/
theorem shownBy_of_nodeData {n : NodeData} (h : nodeData d = .ok n) :
    (∃ es : Entries, d = .map es ∧ n.ShownBy es) ∧
      (∀ f ∈ n.functionList, Identifier.isIdentifier f.name) ∧
      ∀ o ∈ n.others, o.1 ∉ dataFields := by
  simp only [nodeData, record_eq_ok] at h
  obtain ⟨es, rfl, h⟩ := h
  simp only [Checked.functor_map_eq, Checked.seq_eq_ok, Checked.map_eq_ok,
    Checked.exists_exists_and_and, exists_eq_left'] at h
  obtain ⟨label, -, roleMessages, spoken, taskMessages, -, functions, called, preActions, -,
    postActions, done, strategy, -, respond, -, others, unknown, rfl⟩ := h
  have functions_shown := lists_of_optional (fun _ _ => shownIn_of_nodeFunction) called
  refine ⟨⟨es, rfl, functions_shown.imp fun _ _ h => h.1, ?_⟩,
    (functions_shown.imp fun _ _ h => h.2).forall_mem, fresh_of_otherData unknown⟩
  exact NodeData.derive_of_shown (lists_of_optional (fun _ _ => shownIn_of_action) done)
    (lists_of_optional (R := fun _ _ => True) (fun _ _ _ => trivial) spoken)

/-- A node that was read is shown where it was read, and is lawful. -/
theorem shownIn_of_node {n : FlowNode} (h : node d = .ok n) : n.ShownIn d ∧ n.Lawful := by
  simp only [node, record_eq_ok] at h
  obtain ⟨es, rfl, h⟩ := h
  simp only [Checked.functor_map_eq, Checked.seq_eq_ok, Checked.map_eq_ok,
    Checked.exists_exists_and_and, exists_eq_left', required_eq_ok, nameOf_eq_ok] at h
  obtain ⟨_, found, id, ⟨rfl, valid⟩, role, -, _, -, position, -, data, h, rfl⟩ := h
  obtain ⟨absent, rfl⟩ | ⟨d, there, h⟩ := defaulting_eq_ok.1 h
  · have noData : Entries.get es "data" = .null := by simp [Entries.get, absent]
    refine ⟨⟨es, rfl, found, [], .inl ⟨noData, rfl⟩, .inl ⟨rfl, rfl⟩, rfl⟩, valid, ?_, ?_⟩
    · exact List.forall_mem_nil _
    · exact List.forall_mem_nil _
  · obtain ⟨⟨ds, rfl, shown⟩, names, others⟩ := shownBy_of_nodeData h
    exact ⟨⟨es, rfl, found, ds, .inr (Entries.get_of_get? there), shown⟩, valid, names, others⟩

theorem shownIn_of_storedEdge {e : StoredEdge} (h : storedEdge d = .ok e) : e.ShownIn d := by
  simp only [storedEdge, record_eq_ok] at h
  obtain ⟨es, rfl, h⟩ := h
  simp only [Checked.functor_map_eq, Checked.seq_eq_ok, Checked.map_eq_ok,
    Checked.exists_exists_and_and, exists_eq_left', required_eq_ok, someText_eq_ok] at h
  obtain ⟨_, -, id, -, _, start, source, ⟨rfl, -⟩, _, stop, target, ⟨rfl, -⟩, label, -, priority, -,
    condition, -, rfl⟩ := h
  exact ⟨es, rfl, Entries.get_of_get? start, Entries.get_of_get? stop⟩

end Reading

/-- A document shows the flow that is read from it. -/
theorem Flow.shownIn_of_check {d : Document} {f : Flow} (h : Flow.check d = .ok f) :
    f.ShownIn d ∧ f.Lawful := by
  simp only [Flow.check, Checked.toExcept_eq_ok, Reading.flow, Reading.record_eq_ok] at h
  obtain ⟨es, rfl, h⟩ := h
  simp only [Checked.functor_map_eq, Checked.seq_eq_ok, Checked.map_eq_ok,
    Checked.exists_exists_and_and, exists_eq_left', Reading.required_eq_ok] at h
  obtain ⟨uri, -, id, -, _, -, info, -, context, -, globals, -, _, found, nodes, read, edges,
    stored, none, -, rfl⟩ := h
  simp only [Reading.nodes, Checked.andThen_eq_ok, Reading.listOf_eq_ok] at read
  obtain ⟨_, ⟨ds, rfl, items⟩, least⟩ := read
  obtain ⟨rfl, nonempty⟩ := Reading.leastItems_eq_ok least
  refine ⟨⟨es, rfl, ⟨ds, Entries.get_of_get? found, items.imp fun _ _ h => ?_⟩, ?_⟩,
    fun n member => ?_, List.ne_nil_of_length_pos nonempty⟩
  · exact (Reading.shownIn_of_node h).1
  · exact Reading.lists_of_defaulting (fun _ _ => Reading.shownIn_of_storedEdge) stored
  · obtain ⟨d, -, h⟩ := exists_of_mem_right items member
    exact (Reading.shownIn_of_node h).2

/-- The nodes of a flow are read one by one from the document's list of nodes. -/
theorem Flow.nodes_of_check {es : Entries} {f : Flow} (h : Flow.check (.map es) = .ok f) :
    ∃ ds, es.get "nodes" = .list ds ∧
      List.Forall₂ (fun d n => Reading.node d = .ok n) ds f.nodes := by
  simp only [Flow.check, Checked.toExcept_eq_ok, Reading.flow, Reading.record_eq_ok,
    Document.map.injEq, exists_eq_left', Checked.functor_map_eq, Checked.seq_eq_ok,
    Checked.map_eq_ok, Checked.exists_exists_and_and, Reading.required_eq_ok] at h
  obtain ⟨uri, -, id, -, _, -, info, -, context, -, globals, -, _, found, nodes, read, edges, -,
    none, -, rfl⟩ := h
  obtain ⟨ns, read, least⟩ := Checked.andThen_eq_ok.1 read
  obtain ⟨ds, rfl, items⟩ := Reading.listOf_eq_ok.1 read
  obtain ⟨rfl, -⟩ := Reading.leastItems_eq_ok least
  exact ⟨ds, Entries.get_of_get? found, items⟩

/-- What a flow is wanted for matters to errors only. -/
theorem Flow.ofDocument_eq_ok {purpose : Purpose} {d : Document} {f : Flow} :
    Flow.ofDocument purpose d = .ok f ↔ Flow.check d = .ok f := by
  unfold ofDocument
  cases Flow.check d <;> simp [Except.mapError]

end Dialogue
