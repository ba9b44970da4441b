import Dialogue.Proofs.Flow.Writing

/-!
# Reading what was written

A reading rewrites what it accepts: numbers and truth values that were given as texts, fields that
were left out or null. What it gives is its own rewriting, so that it is read again as it is from
the document that it is written as. This goes from the scalars up to whole flows, one lemma for each
way to read and one for each record.
-/

namespace Dialogue

open Document (record)
open Entries (ofFields)

variable {α β : Type}

namespace Reading

/-- Whatever is read from a document is read again from the document that it is written as. -/
def Rereads (read : Reading α) (write : α → Document) : Prop :=
  ∀ (d : Document) (a : α), read d = .ok a → read (write a) = .ok a

/-! ## Scalars -/

theorem rereads_text : Rereads text .text := fun _ _ _ => rfl

theorem rereads_someText : Rereads someText .text := fun _ _ h =>
  someText_eq_ok.2 ⟨rfl, (someText_eq_ok.1 h).2⟩

theorem rereads_nameOf (what : String) : Rereads (nameOf what) .text := fun _ _ h =>
  nameOf_eq_ok.2 ⟨rfl, (nameOf_eq_ok.1 h).2⟩

theorem rereads_float : Rereads float .float := fun _ _ _ => rfl

theorem rereads_bool : Rereads bool .bool := fun _ _ _ => rfl

/-- A number that was read of whatever spelling is written as a whole number and read again. -/
theorem rereads_natural : Rereads natural fun n => .int n := by
  intro d n _
  have sign : ¬(n : Int) < 0 := by omega
  simp [natural, whole, Checked.andThen, sign]

/-- One of several values is read by the first name that fits, so its own name has to be that. -/
theorem rereads_oneOf {values : List α} {name : α → String}
    (found : ∀ a, (values.find? fun b => name b = name a) = some a) :
    Rereads (oneOf values name) fun a => .text (name a) := by
  intro d a _
  simp [oneOf, found a]

theorem rereads_quantity : Rereads quantity Quantity.document := by
  intro d q _
  cases q <;> rfl

/-- No quantity is written as null. -/
theorem quantity_isSet (q : Quantity) : q.document.isNull = false := by
  cases q <;> rfl

theorem rereads_choice : Rereads choice Choice.document := by
  intro d c _
  rcases c with s | (n | x) <;> rfl

/-! ## Lists and maps -/

section

variable {read : Reading α} {write : α → Document}

/-- A list that was written is read item by item. -/
theorem listOf_document {as : List α} (each : ∀ a ∈ as, read (write a) = .ok a) :
    listOf read (Document.listOf write as) = .ok as := by
  rw [listOf_eq_ok]
  refine ⟨as.map write, rfl, ?_⟩
  rwa [List.forall₂_map_left_iff, List.forall₂_same]

theorem rereads_listOf (again : Rereads read write) :
    Rereads (listOf read) (Document.listOf write) := by
  intro d as h
  obtain ⟨ds, rfl, items⟩ := listOf_eq_ok.1 h
  refine listOf_document fun a member => ?_
  obtain ⟨d, -, h⟩ := exists_of_mem_right items member
  exact again _ _ h

/-- A map is read under text keys only, in order. -/
theorem mapOf_eq_ok {d : Document} {ps : List (String × α)} : mapOf read d = .ok ps ↔
    ∃ es, d = .map es ∧ List.Forall₂ (fun e p => e.1 = .text p.1 ∧ read e.2 = .ok p.2) es ps := by
  have entry : (fun (e : Scalar × Document) (p : String × α) =>
      ((Prod.mk <$> (text (.scalar e.1)).under "[key]" <*> read e.2).under (keyStep e.1)) =
        .ok p) = fun e p => e.1 = .text p.1 ∧ read e.2 = .ok p.2 := by
    funext e p
    simp [Prod.ext_iff]
  cases d with
  | map es =>
    simp only [mapOf, Checked.all_eq_ok, List.forall₂_map_left_iff, entry, Document.map.injEq,
      exists_eq_left']
  | _ => simp [mapOf]

theorem rereads_mapOf (again : Rereads read write) :
    Rereads (mapOf read) fun ps => .object (ps.map fun p => (p.1, write p.2)) := by
  intro d ps h
  obtain ⟨es, rfl, entries⟩ := mapOf_eq_ok.1 h
  refine mapOf_eq_ok.2 ⟨_, rfl, ?_⟩
  rw [List.forall₂_map_left_iff, List.forall₂_map_left_iff, List.forall₂_same]
  intro p member
  obtain ⟨e, -, -, h⟩ := exists_of_mem_right entries member
  exact ⟨rfl, again _ _ h⟩

/-! ## Fields of records -/

variable {es fs : Entries} {key : String}

/-- A required field reads again as what was written of it. -/
theorem Rereads.required (again : Rereads read write) {a : α}
    (was : Reading.required es key read = .ok a) (stands : fs.get? key = some (write a)) :
    Reading.required fs key read = .ok a := by
  obtain ⟨d, -, h⟩ := required_eq_ok.1 was
  exact required_eq_ok.2 ⟨_, stands, again _ _ h⟩

/-- The field may have another name in the written record. -/
theorem Rereads.optional (again : Rereads read write) (set : ∀ a, (write a).isNull = false)
    {o : Option α} (was : Reading.optional es key read = .ok o) {key' : String}
    (stands : fs.get? key' = o.map write) : Reading.optional fs key' read = .ok o := by
  obtain ⟨-, rfl⟩ | ⟨d, a, -, -, h, rfl⟩ := optional_eq_ok.1 was
  · exact optional_eq_ok.2 (.inl ⟨by simp [Entries.get, stands], rfl⟩)
  · have ne : write a ≠ .null := by
      intro null
      have isNull := set a
      rw [null] at isNull
      cases isNull
    exact optional_eq_ok.2 (.inr ⟨_, a, stands, ne, again _ _ h, rfl⟩)

/-- So does a field with a default, if the default itself does. -/
theorem Rereads.defaulting (again : Rereads read write) {default a : α}
    (fallback : read (write default) = .ok default)
    (was : Reading.defaulting es key default read = .ok a)
    (stands : fs.get? key = some (write a)) : Reading.defaulting fs key default read = .ok a := by
  obtain ⟨-, rfl⟩ | ⟨d, -, h⟩ := defaulting_eq_ok.1 was
  · exact defaulting_eq_ok.2 (.inr ⟨_, stands, fallback⟩)
  · exact defaulting_eq_ok.2 (.inr ⟨_, stands, again _ _ h⟩)

/-- Fields that are not set are not looked at in a record that was written. -/
theorem record_record {name : String} {fields : Entries → Checked α} {a : α}
    {set : List (String × Option Document)} (read : fields (ofFields set) = .ok a) :
    record name fields (Document.record set) = .ok a := record_eq_ok.2 ⟨_, rfl, read⟩

theorem record_object {name : String} {fields : Entries → Checked α} {a : α}
    {set : List (String × Document)} (read : fields (set.map fun f => (.text f.1, f.2)) = .ok a) :
    record name fields (.object set) = .ok a := record_eq_ok.2 ⟨_, rfl, read⟩

end

/-! ## Records -/

theorem rereads_position : Rereads position Position.document := by
  intro d p h
  simp only [position, record_eq_ok, Checked.functor_map_eq, Checked.seq_eq_ok, Checked.map_eq_ok,
    Checked.exists_exists_and_and, exists_eq_left'] at h
  obtain ⟨es, rfl, x, readX, y, readY, rfl⟩ := h
  refine record_object ?_
  simp only [Checked.functor_map_eq, Checked.seq_eq_ok, Checked.map_eq_ok,
    Checked.exists_exists_and_and, exists_eq_left']
  exact ⟨_, rereads_float.required readX (by simp), _, rereads_float.required readY (by simp), rfl⟩

theorem rereads_message : Rereads message Message.document := by
  intro d m h
  simp only [message, record_eq_ok, Checked.functor_map_eq, Checked.seq_eq_ok, Checked.map_eq_ok,
    Checked.exists_exists_and_and, exists_eq_left'] at h
  obtain ⟨es, rfl, speaker, spoken, content, said, rfl⟩ := h
  have speakers : Rereads (oneOf Speaker.all Speaker.name) fun s => .text s.name :=
    rereads_oneOf fun s => by cases s <;> rfl
  refine record_object ?_
  simp only [Checked.functor_map_eq, Checked.seq_eq_ok, Checked.map_eq_ok,
    Checked.exists_exists_and_and, exists_eq_left']
  exact ⟨_, speakers.required spoken (by simp), _, rereads_text.required said (by simp), rfl⟩

/-- A property reads again, whichever of its fields are set. -/
theorem rereads_property : Rereads property Property.document := by
  intro d p h
  simp only [property, record_eq_ok, Checked.functor_map_eq, Checked.seq_eq_ok, Checked.map_eq_ok,
    Checked.exists_exists_and_and, exists_eq_left'] at h
  obtain ⟨es, rfl, type, typed, description, described, choices, chosen, minimum, least, maximum,
    most, pattern, matched, rfl⟩ := h
  refine record_record ?_
  simp only [Checked.functor_map_eq, Checked.seq_eq_ok, Checked.map_eq_ok,
    Checked.exists_exists_and_and, exists_eq_left']
  exact ⟨_, rereads_text.required typed (by simp),
    _, rereads_text.optional (fun _ => rfl) described (by simp),
    _, (rereads_listOf rereads_choice).optional (fun _ => rfl) chosen (by simp),
    _, rereads_quantity.optional quantity_isSet least (by simp),
    _, rereads_quantity.optional quantity_isSet most (by simp),
    _, rereads_text.optional (fun _ => rfl) matched (by simp), rfl⟩

/-- Properties are a map with identifiers for keys. -/
theorem properties_eq_ok {d : Document} {ps : List (String × Property)} :
    properties d = .ok ps ↔
      mapOf property d = .ok ps ∧ ∀ p ∈ ps, Identifier.isIdentifier p.1 := by
  simp only [properties, Checked.andThen_eq_ok, propertyNames]
  constructor
  · rintro ⟨qs, entries, named⟩
    split at named
    case h_1 => cases named
    case h_2 none =>
      obtain rfl := Checked.ok.inj named
      exact ⟨entries, by simpa using none⟩
  · rintro ⟨entries, each⟩
    have none : ps.find? (fun p => !Identifier.isIdentifier p.1) = none :=
      List.find?_eq_none.2 (by simpa using each)
    exact ⟨ps, entries, by rw [none]⟩

/-- The names stay, and with them the check that they are identifiers. -/
theorem rereads_properties :
    Rereads properties fun ps => .object (ps.map fun p => (p.1, p.2.document)) := fun d ps h =>
  properties_eq_ok.2 ((properties_eq_ok.1 h).imp_left (rereads_mapOf rereads_property d ps))

theorem rereads_condition : Rereads condition Condition.document := by
  intro d x h
  simp only [condition, record_eq_ok, Checked.functor_map_eq, Checked.seq_eq_ok, Checked.map_eq_ok,
    Checked.exists_exists_and_and, exists_eq_left'] at h
  obtain ⟨es, rfl, operator, compared, value, valued, target, leads, rfl⟩ := h
  have operators : Rereads (oneOf Operator.all Operator.name) fun o => .text o.name :=
    rereads_oneOf fun o => by cases o <;> rfl
  refine record_object ?_
  simp only [Checked.functor_map_eq, Checked.seq_eq_ok, Checked.map_eq_ok,
    Checked.exists_exists_and_and, exists_eq_left']
  exact ⟨_, operators.required compared (by simp), _, rereads_text.required valued (by simp),
    _, rereads_someText.required leads (by simp), rfl⟩

/-- A decision reads again, its position included. -/
theorem rereads_decision : Rereads decision Decision.document := by
  intro d x h
  simp only [decision, record_eq_ok, Checked.functor_map_eq, Checked.seq_eq_ok, Checked.map_eq_ok,
    Checked.exists_exists_and_and, exists_eq_left'] at h
  obtain ⟨es, rfl, action, acts, conditions, tested, fallback, falls, position, placed, rfl⟩ := h
  refine record_record ?_
  simp only [Checked.functor_map_eq, Checked.seq_eq_ok, Checked.map_eq_ok,
    Checked.exists_exists_and_and, exists_eq_left']
  exact ⟨_, rereads_someText.required acts (by simp [Decision.fields]),
    _, (rereads_listOf rereads_condition).defaulting rfl tested (by simp [Decision.fields]),
    _, rereads_someText.required falls (by simp [Decision.fields]),
    _, rereads_position.optional (fun _ => rfl) placed (by simp [Decision.fields]), rfl⟩

/-- A signature is read again from what it is written as, whatever other fields come after. -/
theorem signatureOf_fields {es : Entries} {s : Signature} (h : signatureOf es = .ok s)
    {more : List (String × Option Document)}
    (fresh : ∀ f ∈ more, f.1 ≠ "properties" ∧ f.1 ≠ "required") :
    signatureOf (ofFields (s.fields ++ more)) = .ok s := by
  have properties : (ofFields more).get? "properties" = none :=
    Entries.get?_ofFields_of_fresh fun f member => (fresh f member).1
  have required : (ofFields more).get? "required" = none :=
    Entries.get?_ofFields_of_fresh fun f member => (fresh f member).2
  simp only [signatureOf, Checked.functor_map_eq, Checked.seq_eq_ok, Checked.map_eq_ok,
    Checked.exists_exists_and_and, exists_eq_left'] at h ⊢
  obtain ⟨_, named, _, described, _, taken, _, needed, rfl⟩ := h
  exact ⟨_, (rereads_nameOf _).required named (by simp [Signature.fields]),
    _, rereads_text.required described (by simp [Signature.fields]),
    _, rereads_properties.optional (fun _ => rfl) taken (by simp [Signature.fields, properties]),
    _, (rereads_listOf rereads_text).optional (fun _ => rfl) needed
      (by simp [Signature.fields, required]), rfl⟩

theorem rereads_globalFunction : Rereads globalFunction Signature.document := by
  intro d s h
  obtain ⟨es, rfl, h⟩ := record_eq_ok.1 h
  have again := signatureOf_fields h (List.forall_mem_nil _)
  rw [List.append_nil] at again
  exact record_record again

/-- So does a function, with its decision or its target. -/
theorem rereads_nodeFunction : Rereads nodeFunction NodeFunction.document := by
  intro d x h
  simp only [nodeFunction, record_eq_ok, Checked.functor_map_eq, Checked.seq_eq_ok,
    Checked.map_eq_ok, Checked.exists_exists_and_and, exists_eq_left'] at h
  obtain ⟨es, rfl, signature, signed, target, leads, decision, decided, rfl⟩ := h
  refine record_record ?_
  simp only [NodeFunction.fields, Checked.functor_map_eq, Checked.seq_eq_ok, Checked.map_eq_ok,
    Checked.exists_exists_and_and, exists_eq_left']
  exact ⟨_, signatureOf_fields signed (by simp),
    _, rereads_text.optional (fun _ => rfl) leads (by simp [Signature.fields]),
    _, rereads_decision.optional (fun _ => rfl) decided (by simp [Signature.fields]), rfl⟩

theorem rereads_action : Rereads action Action.document := by
  intro d x h
  simp only [action, record_eq_ok, Checked.functor_map_eq, Checked.seq_eq_ok, Checked.map_eq_ok,
    Checked.exists_exists_and_and, exists_eq_left'] at h
  obtain ⟨es, rfl, type, typed, handler, handled, text, said, rfl⟩ := h
  refine record_record ?_
  simp only [Checked.functor_map_eq, Checked.seq_eq_ok, Checked.map_eq_ok,
    Checked.exists_exists_and_and, exists_eq_left']
  exact ⟨_, rereads_text.required typed (by simp),
    _, rereads_text.optional (fun _ => rfl) handled (by simp),
    _, rereads_text.optional (fun _ => rfl) said (by simp), rfl⟩

theorem rereads_contextStrategy : Rereads contextStrategy ContextStrategy.document := by
  intro d x h
  simp only [contextStrategy, record_eq_ok, Checked.functor_map_eq, Checked.seq_eq_ok,
    Checked.map_eq_ok, Checked.exists_exists_and_and, exists_eq_left'] at h
  obtain ⟨es, rfl, mode, chosen, prompt, prompted, rfl⟩ := h
  have modes : Rereads (oneOf ContextMode.all ContextMode.name) fun m => .text m.name :=
    rereads_oneOf fun m => by cases m <;> rfl
  refine record_record ?_
  simp only [Checked.functor_map_eq, Checked.seq_eq_ok, Checked.map_eq_ok,
    Checked.exists_exists_and_and, exists_eq_left']
  exact ⟨_, modes.required chosen (by simp),
    _, rereads_text.optional (fun _ => rfl) prompted (by simp), rfl⟩

theorem rereads_edgeCondition : Rereads edgeCondition EdgeCondition.document := by
  intro d x h
  simp only [edgeCondition, record_eq_ok, Checked.functor_map_eq, Checked.seq_eq_ok,
    Checked.map_eq_ok, Checked.exists_exists_and_and, exists_eq_left'] at h
  obtain ⟨es, rfl, expression, tested, language, spoken, rfl⟩ := h
  have languages : Rereads (oneOf Language.all Language.name) fun l => .text l.name :=
    rereads_oneOf fun l => by cases l <;> rfl
  refine record_record ?_
  simp only [Checked.functor_map_eq, Checked.seq_eq_ok, Checked.map_eq_ok,
    Checked.exists_exists_and_and, exists_eq_left']
  exact ⟨_, rereads_text.optional (fun _ => rfl) tested (by simp),
    _, languages.optional (fun _ => rfl) spoken (by simp), rfl⟩

theorem rereads_storedEdge : Rereads storedEdge StoredEdge.document := by
  intro d x h
  simp only [storedEdge, record_eq_ok, Checked.functor_map_eq, Checked.seq_eq_ok, Checked.map_eq_ok,
    Checked.exists_exists_and_and, exists_eq_left'] at h
  obtain ⟨es, rfl, id, called, source, starts, target, ends, label, labelled, priority, ranked,
    condition, tested, rfl⟩ := h
  refine record_record ?_
  simp only [Checked.functor_map_eq, Checked.seq_eq_ok, Checked.map_eq_ok,
    Checked.exists_exists_and_and, exists_eq_left']
  exact ⟨_, rereads_someText.required called (by simp),
    _, rereads_someText.required starts (by simp),
    _, rereads_someText.required ends (by simp),
    _, rereads_text.optional (fun _ => rfl) labelled (by simp),
    _, rereads_natural.optional (fun _ => rfl) ranked (by cases priority <;> simp),
    _, rereads_edgeCondition.optional (fun _ => rfl) tested (by simp), rfl⟩

theorem rereads_info : Rereads info Meta.document := by
  intro d x h
  simp only [info, record_eq_ok, Checked.functor_map_eq, Checked.seq_eq_ok, Checked.map_eq_ok,
    Checked.exists_exists_and_and, exists_eq_left'] at h
  obtain ⟨es, rfl, name, named, version, dated, description, described, rfl⟩ := h
  refine record_record ?_
  simp only [Checked.functor_map_eq, Checked.seq_eq_ok, Checked.map_eq_ok,
    Checked.exists_exists_and_and, exists_eq_left']
  exact ⟨_, rereads_someText.required named (by simp),
    _, rereads_text.defaulting rfl dated (by simp),
    _, rereads_text.optional (fun _ => rfl) described (by simp), rfl⟩

/-! ## The data of nodes -/

theorem all_map_ok (as : List α) : Checked.all (as.map .ok) = .ok as := by
  rw [Checked.all_eq_ok, List.forall₂_map_left_iff, List.forall₂_same]
  exact fun _ _ => rfl

/-- The fields with other names are those of the record that are set and called otherwise. -/
theorem others_ofFields (fields : List (String × Option Document)) (known : List String) :
    others (ofFields fields) known =
      .ok ((fields.filterMap fun f => f.2.map fun d => (f.1, d)).filter
        fun f => !known.contains f.1) := by
  have each (set : List (String × Document)) : others (set.map fun f => (.text f.1, f.2)) known =
      (Checked.all ((set.map fun f => if known.contains f.1 then none else some f).map .ok)).map
        fun fs => fs.filterMap id := by
    rw [others, List.map_map, List.map_map]
    rfl
  rw [ofFields, each, all_map_ok]
  simp only [Checked.map, List.filterMap_map, Checked.ok.injEq]
  rw [← List.filterMap_eq_filter]
  refine List.filterMap_congr fun f _ => ?_
  by_cases h : f.1 ∈ known <;> simp [h, Option.guard]

/-- Fields with names that the format does not know, none of them null. -/
structure IsOther (rest : List (String × Document)) : Prop where
  fresh : ∀ f ∈ rest, f.1 ∉ dataFields
  notNull : ∀ f ∈ rest, !f.2.isNull

/-- Data of unknown fields are under other names than the known ones. -/
theorem isOther_of_otherData {es : Entries} {rest : List (String × Document)}
    (h : otherData es = .ok rest) : IsOther rest := by
  refine ⟨fresh_of_otherData h, ?_⟩
  obtain ⟨all, -, rfl⟩ := Checked.map_eq_ok.1 h
  exact fun f member => (List.mem_filter.1 member).2

/-- What was written behind the known fields is read as other data. -/
theorem otherData_fields {rest : List (String × Document)} (other : IsOther rest)
    {set : List (String × Option Document)} (known : ∀ f ∈ set, f.1 ∈ dataFields) :
    otherData (ofFields (set ++ rest.map fun f => (f.1, some f.2))) = .ok rest := by
  have these : (set.filterMap fun f => f.2.map fun d => (f.1, d)).filter
      (fun f => !dataFields.contains f.1) = [] := by
    rw [List.filter_eq_nil_iff]
    intro f member
    obtain ⟨g, there, same⟩ := List.mem_filterMap.1 member
    obtain ⟨d, -, rfl⟩ := Option.map_eq_some_iff.1 same
    simpa using known g there
  have those : (rest.map fun f => (f.1, some f.2)).filterMap
      (fun f => f.2.map fun d => (f.1, d)) = rest := by
    simp [List.filterMap_map]
  have others : rest.filter (fun f => !dataFields.contains f.1) = rest :=
    List.filter_eq_self.2 fun f member => by simpa using other.fresh f member
  rw [otherData, others_ofFields, List.filterMap_append, List.filter_append, these, those, others]
  exact congrArg Checked.ok (List.filter_eq_self.2 other.notNull)

/-- The data of a node are read again with any other fields that the format does not know. -/
theorem nodeData_document {d : Document} {n : NodeData} (h : nodeData d = .ok n)
    {rest : List (String × Document)} (other : IsOther rest) :
    nodeData { n with others := rest }.document = .ok { n with others := rest } := by
  simp only [nodeData, record_eq_ok, Checked.functor_map_eq, Checked.seq_eq_ok, Checked.map_eq_ok,
    Checked.exists_exists_and_and, exists_eq_left'] at h
  obtain ⟨es, rfl, label, labelled, roleMessages, spoken, taskMessages, told, functions, called,
    preActions, before, postActions, after, strategy, kept, respond, responds, _, -, rfl⟩ := h
  have absent : ∀ key ∈ dataFields,
      (ofFields (rest.map fun f => (f.1, some f.2))).get? key = none := fun key known =>
    NodeData.get?_others (d := { others := rest }) other.fresh known
  simp only [dataFields, List.forall_mem_cons] at absent
  refine record_record ?_
  simp only [NodeData.fields, Checked.functor_map_eq, Checked.seq_eq_ok, Checked.map_eq_ok,
    Checked.exists_exists_and_and, exists_eq_left']
  exact ⟨_, rereads_someText.optional (fun _ => rfl) labelled (by simp [absent]),
    _, (rereads_listOf rereads_message).optional (fun _ => rfl) spoken (by simp [absent]),
    _, (rereads_listOf rereads_message).optional (fun _ => rfl) told (by simp [absent]),
    _, (rereads_listOf rereads_nodeFunction).optional (fun _ => rfl) called (by simp [absent]),
    _, (rereads_listOf rereads_action).optional (fun _ => rfl) before (by simp [absent]),
    _, (rereads_listOf rereads_action).optional (fun _ => rfl) after (by simp [absent]),
    _, rereads_contextStrategy.optional (fun _ => rfl) kept (by simp [absent]),
    _, rereads_bool.optional (fun _ => rfl) responds (by simp [absent]),
    _, otherData_fields other (by simp [dataFields]), rfl⟩

/-- Node data keep unknown fields apart from known ones. -/
theorem isOther_of_nodeData {d : Document} {n : NodeData} (h : nodeData d = .ok n) :
    IsOther n.others := by
  simp only [nodeData, record_eq_ok, Checked.functor_map_eq, Checked.seq_eq_ok, Checked.map_eq_ok,
    Checked.exists_exists_and_and, exists_eq_left'] at h
  obtain ⟨_, rfl, _, -, _, -, _, -, _, -, _, -, _, -, _, -, _, -, _, unknown, rfl⟩ := h
  exact isOther_of_otherData unknown

/-! ## Nodes and flows -/

/-- A role is read back by its name. -/
theorem role_name (r : Role) : oneOf Role.all Role.name (.text r.name) = .ok r := by
  cases r <;> rfl

/-- The data of a node are read from some document, even where the node has none. -/
theorem exists_nodeData {d : Document} {n : FlowNode} (h : node d = .ok n) :
    ∃ e, nodeData e = .ok n.data := by
  simp only [node, record_eq_ok, Checked.functor_map_eq, Checked.seq_eq_ok, Checked.map_eq_ok,
    Checked.exists_exists_and_and, exists_eq_left'] at h
  obtain ⟨_, rfl, _, -, _, -, _, -, data, told, rfl⟩ := h
  obtain ⟨-, rfl⟩ | ⟨e, -, read⟩ := defaulting_eq_ok.1 told
  · exact ⟨.map [], rfl⟩
  · exact ⟨e, read⟩

/-- A node is read again from its document, in any role and with any other fields that the format
does not know. -/
theorem node_document {d : Document} {n : FlowNode} (h : node d = .ok n) (r : Role)
    {rest : List (String × Document)} (other : IsOther rest) :
    node { n with role := r, data := { n.data with others := rest } }.document =
      .ok { n with role := r, data := { n.data with others := rest } } := by
  obtain ⟨e, told⟩ := exists_nodeData h
  simp only [node, record_eq_ok, Checked.functor_map_eq, Checked.seq_eq_ok, Checked.map_eq_ok,
    Checked.exists_exists_and_and, exists_eq_left'] at h
  obtain ⟨es, rfl, id, called, role, -, position, placed, data, -, rfl⟩ := h
  refine record_object ?_
  simp only [Checked.functor_map_eq, Checked.seq_eq_ok, Checked.map_eq_ok,
    Checked.exists_exists_and_and, exists_eq_left']
  exact ⟨_, (rereads_nameOf _).required called (by simp),
    r, defaulting_eq_ok.2 (.inr ⟨.text r.name, by simp, role_name r⟩),
    _, rereads_position.required placed (by simp),
    _, defaulting_eq_ok.2 (.inr ⟨_, by simp, nodeData_document told other⟩), rfl⟩

theorem isOther_of_node {d : Document} {n : FlowNode} (h : node d = .ok n) :
    IsOther n.data.others := by
  obtain ⟨e, told⟩ := exists_nodeData h
  exact isOther_of_nodeData told

/-- The edge that a function's target gives is written as one that can be read. -/
theorem storedEdge_directEdge {n : FlowNode} (named : n.id ≠ "") {e : StoredEdge}
    (direct : e ∈ n.directEdges) : storedEdge e.document = .ok e := by
  obtain ⟨f, -, made⟩ := List.mem_filterMap.1 direct
  obtain ⟨target, leads, rfl⟩ := Option.map_eq_some_iff.1 made
  have some : target ≠ "" := by
    unfold NodeFunction.directTarget? at leads
    split at leads
    case h_1 t _ _ =>
      split at leads
      · cases leads
      · rwa [← Option.some.inj leads]
    case h_2 => cases leads
  have id : "func-" ++ n.id ++ "-" ++ f.name ++ "-" ++ target ≠ "" := by
    simp [some]
  refine record_record ?_
  simp only [Checked.functor_map_eq, Checked.seq_eq_ok, Checked.map_eq_ok,
    Checked.exists_exists_and_and, exists_eq_left']
  exact ⟨_, required_eq_ok.2 ⟨_, by simp, someText_eq_ok.2 ⟨rfl, id⟩⟩,
    _, required_eq_ok.2 ⟨_, by simp, someText_eq_ok.2 ⟨rfl, named⟩⟩,
    _, required_eq_ok.2 ⟨_, by simp, someText_eq_ok.2 ⟨rfl, some⟩⟩,
    _, optional_eq_ok.2 (.inr ⟨.text f.name, _, by simp, by simp, rfl, rfl⟩),
    _, optional_eq_ok.2 (.inl ⟨by simp [Entries.get], rfl⟩),
    _, optional_eq_ok.2 (.inl ⟨by simp [Entries.get], rfl⟩), rfl⟩

/-- Nodes are read again as long as there are some. -/
theorem nodes_listOf {ns : List FlowNode} (some : ns ≠ [])
    (each : ∀ n ∈ ns, node n.document = .ok n) :
    nodes (Document.listOf FlowNode.document ns) = .ok ns := by
  have enough : ¬ns.length < 1 := by simpa using some
  exact Checked.andThen_eq_ok.2 ⟨ns, listOf_document each, by simp [leastItems, enough]⟩

/-- Known keys alone are not complained of. -/
theorem noOthers_of_known {es : Entries} {known : List String}
    (all : ∀ e ∈ es, ∃ key ∈ known, e.1 = .text key) : noOthers es known = .ok () := by
  refine Checked.map_eq_ok.2 ⟨es.map fun _ => (), Checked.all_eq_ok.2 ?_, rfl⟩
  rw [List.forall₂_map_left_iff, List.forall₂_map_right_iff, List.forall₂_same]
  rintro ⟨k, d⟩ member
  obtain ⟨key, among, rfl⟩ := all _ member
  simp [among]

theorem noOthers_ofFields {fields : List (String × Option Document)} {known : List String}
    (all : ∀ f ∈ fields, f.1 ∈ known) : noOthers (ofFields fields) known = .ok () := by
  refine noOthers_of_known fun e member => ?_
  obtain ⟨f, set, rfl⟩ := List.mem_map.1 member
  obtain ⟨g, there, same⟩ := List.mem_filterMap.1 set
  obtain ⟨d, -, rfl⟩ := Option.map_eq_some_iff.1 same
  exact ⟨g.1, all g there, rfl⟩

/-- Values that are not read any further stay as they are. -/
theorem anyMap_object (ps : List (String × Document)) : mapOf .ok (.object ps) = .ok ps :=
  mapOf_eq_ok.2 ⟨_, rfl, by simp [List.forall₂_map_left_iff, List.forall₂_same]⟩

theorem optional_anyMap {es : Entries} {key : String} {o : Option (List (String × Document))}
    (stands : es.get? key = o.map .object) : optional es key (mapOf .ok) = .ok o := by
  cases o with
  | none => exact optional_eq_ok.2 (.inl ⟨by simp [Entries.get, stands], rfl⟩)
  | some ps =>
      have notNull : Document.object ps ≠ .null := by simp [Document.object]
      exact optional_eq_ok.2 (.inr ⟨_, ps, stands, notNull, anyMap_object ps, rfl⟩)

/-- The plain spelling counts where the other is absent. -/
theorem spelling_of_absent {es : Entries} (key : String) {other : String}
    (absent : es.get? other = none) : spelling es key other = key := by
  simp [spelling, Entries.has, absent]

end Reading

/-- Changing the context, and nodes and edges for others that are read again from their documents,
gives a flow that is read again from its document. -/
theorem Flow.check_rewritten {d : Document} {f : Flow} (h : Flow.check d = .ok f)
    (context : Option (List (String × Document))) {ns : List FlowNode} (some : ns ≠ [])
    (nodes : ∀ n ∈ ns, Reading.node n.document = .ok n)
    {es : List StoredEdge} (edges : ∀ e ∈ es, Reading.storedEdge e.document = .ok e) :
    Flow.check { f with context, nodes := ns, edges := es }.document =
      .ok { f with context, nodes := ns, edges := es } := by
  simp only [Flow.check, Checked.toExcept_eq_ok, Reading.flow, Reading.record_eq_ok,
    Checked.functor_map_eq, Checked.seq_eq_ok, Checked.map_eq_ok,
    Checked.exists_exists_and_and, exists_eq_left'] at h
  obtain ⟨fs, rfl, uri, located, id, identified, info, informed, _, -, globals, shared, _, -, _, -,
    _, -, rfl⟩ := h
  rw [Flow.check, Checked.toExcept_eq_ok]
  refine Reading.record_record ?_
  rw [Reading.flowFields, Reading.spelling_of_absent "$schema" (by simp [Flow.fields]),
    Reading.spelling_of_absent "$id" (by simp [Flow.fields]),
    Reading.noOthers_ofFields (by simp [Flow.fields])]
  simp only [Checked.functor_map_eq, Checked.seq_eq_ok, Checked.map_eq_ok,
    Checked.exists_exists_and_and, exists_eq_left', Flow.fields]
  exact ⟨_, Reading.rereads_text.optional (fun _ => rfl) located (by simp),
    _, Reading.rereads_text.optional (fun _ => rfl) identified (by simp),
    _, Reading.rereads_info.required informed (by simp),
    context, Reading.optional_anyMap (by simp),
    _, (Reading.rereads_listOf Reading.rereads_globalFunction).optional (fun _ => rfl) shared
      (by simp),
    ns, Reading.required_eq_ok.2 ⟨_, by simp, Reading.nodes_listOf some nodes⟩,
    es, Reading.defaulting_eq_ok.2 (.inr ⟨_, by simp, Reading.listOf_document edges⟩),
    (), trivial, rfl⟩

/-! ## Fixpoints of reading -/

/-- The nodes and edges of a flow are read each from its part of the document. -/
theorem Flow.parts_of_check {d : Document} {f : Flow} (h : Flow.check d = .ok f) :
    (∀ n ∈ f.nodes, ∃ d, Reading.node d = .ok n) ∧
      ∀ e ∈ f.edges, ∃ d, Reading.storedEdge d = .ok e := by
  simp only [Flow.check, Checked.toExcept_eq_ok, Reading.flow, Reading.record_eq_ok,
    Checked.functor_map_eq, Checked.seq_eq_ok, Checked.map_eq_ok,
    Checked.exists_exists_and_and, exists_eq_left', Reading.required_eq_ok] at h
  obtain ⟨fs, rfl, uri, -, id, -, _, -, info, -, context, -, globals, -, _, -, nodes, read, edges,
    stored, none, -, rfl⟩ := h
  simp only [Reading.nodes, Checked.andThen_eq_ok, Reading.listOf_eq_ok] at read
  obtain ⟨_, ⟨ds, rfl, items⟩, least⟩ := read
  obtain ⟨rfl, -⟩ := Reading.leastItems_eq_ok least
  refine ⟨fun n member => ?_, fun e member => ?_⟩
  · exact (exists_of_mem_right items member).imp fun _ h => h.2
  · obtain ⟨-, rfl⟩ | ⟨d, -, read⟩ := Reading.defaulting_eq_ok.1 stored
    · cases member
    · obtain ⟨ds, rfl, items⟩ := Reading.listOf_eq_ok.1 read
      exact (exists_of_mem_right items member).imp fun _ h => h.2

/-- A flow is read again from the document that it is written as. -/
theorem Flow.check_document {d : Document} {f : Flow} (h : Flow.check d = .ok f) :
    Flow.check f.document = .ok f := by
  obtain ⟨nodes, edges⟩ := Flow.parts_of_check h
  refine Flow.check_rewritten h f.context (Flow.shownIn_of_check h).2.someNode
    (fun n member => ?_) fun e member => ?_
  · obtain ⟨d, h⟩ := nodes n member
    exact Reading.node_document h n.role (Reading.isOther_of_node h)
  · obtain ⟨d, h⟩ := edges e member
    exact Reading.rereads_storedEdge d e h

/-- So it is once its roles are derived and its edges replaced by its direct routes. -/
theorem Flow.check_normalize {d : Document} {f : Flow} (h : Flow.check d = .ok f) :
    Flow.check f.normalize.document = .ok f.normalize := by
  have lawful := (Flow.shownIn_of_check h).2
  refine Flow.check_rewritten h f.context lawful.normalize.someNode (fun n member => ?_)
    fun e member => ?_
  · obtain ⟨m, there, rfl⟩ := List.mem_map.1 member
    obtain ⟨d, h⟩ := (Flow.parts_of_check h).1 m there
    exact Reading.node_document h m.data.role (Reading.isOther_of_node h)
  · obtain ⟨n, there, direct⟩ := List.mem_flatMap.1 member
    have named := Identifier.ne_empty_of_isIdentifier (lawful.nodes n there).id
    exact Reading.storedEdge_directEdge named direct

/-- Normalizing twice is normalizing once. -/
theorem Flow.normalize_normalize (f : Flow) : f.normalize.normalize = f.normalize := by
  have roles (n : FlowNode) : n.withRole.withRole = n.withRole := rfl
  have edges (n : FlowNode) : n.withRole.directEdges = n.directEdges := rfl
  simp [Flow.normalize, List.flatMap_map, roles, edges]

end Dialogue
