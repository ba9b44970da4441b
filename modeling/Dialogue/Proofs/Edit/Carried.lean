import Dialogue.Proofs.Edit.Substitution
import Dialogue.Proofs.Flow.Writing

/-!
# Readings of renamed documents

A node in which references are renamed is read as the node that was read before, with its references
renamed, however it is written: readings look up fields, and the changes are made under fields.
-/

namespace Dialogue

open Document (onMap onItems)

variable {α β : Type}

/-! ## Fields under changes elsewhere -/

namespace Entries

/-- What does not look at the value of a field does not see it modified. -/
theorem map_modify {h : Scalar × Document → β} {key : String} {f : Document → Document}
    (blind : ∀ d, h (.text key, f d) = h (.text key, d)) (es : Entries) :
    (es.modify key f).map h = es.map h := by
  induction es with
  | nil => rfl
  | cons e es ih =>
    obtain ⟨k, d⟩ := e
    by_cases same : k = .text key
    · simp [modify, same, blind]
    · simp [modify, same, ih]

end Entries

namespace Reading

variable {es fs : Entries} {key other : String} {read : Reading α} {f : Document → Document}
  {g : α → α}

/-- A field is read as it is found, whatever else the map holds. -/
theorem required_congr (same : fs.get? key = es.get? key) :
    required fs key read = required es key read := by
  rw [required, required, same]

theorem defaulting_congr {default : α} (same : fs.get? key = es.get? key) :
    defaulting fs key default read = defaulting es key default read := by
  rw [defaulting, defaulting, same]

theorem optional_congr (same : fs.get? key = es.get? key) :
    optional fs key read = optional es key read := by
  rw [optional, optional, same]

/-- Reading a field does not see another one modified. -/
theorem required_modify (ne : other ≠ key) :
    required (es.modify other f) key read = required es key read :=
  required_congr (by rw [Entries.get?_modify, if_neg ne])

theorem defaulting_modify {default : α} (ne : other ≠ key) :
    defaulting (es.modify other f) key default read = defaulting es key default read :=
  defaulting_congr (by rw [Entries.get?_modify, if_neg ne])

theorem optional_modify (ne : other ≠ key) :
    optional (es.modify other f) key read = optional es key read :=
  optional_congr (by rw [Entries.get?_modify, if_neg ne])

/-- What a function is called and takes is not touched by a change elsewhere in it. -/
theorem signatureOf_modify (fresh : other ∉ ["name", "description", "properties", "required"]) :
    signatureOf (es.modify other f) = signatureOf es := by
  simp only [List.mem_cons, List.not_mem_nil, or_false, not_or] at fresh
  obtain ⟨name, description, properties, required⟩ := fresh
  rw [signatureOf, signatureOf, required_modify name, required_modify description,
    optional_modify properties, optional_modify required]

/-- Data of unknown fields are not touched where a known one changes. -/
theorem otherData_modify (known : other ∈ dataFields) :
    otherData (es.modify other f) = otherData es := by
  rw [otherData, otherData, others, others, Entries.map_modify]
  intro d
  simp [known]

/-! ## Readings of changed documents -/

/-- What is read from a changed document is what was read before, with a change of its own. -/
def Carries (read : Reading α) (f : Document → Document) (g : α → α) : Prop :=
  ∀ d a, read d = .ok a → read (f d) = .ok (g a)

/-- A change of a field carries over to what is read of it. -/
theorem Carries.required (carries : Carries read f g) {a : α}
    (h : Reading.required es key read = .ok a) :
    Reading.required (es.modify key f) key read = .ok (g a) := by
  obtain ⟨d, found, h⟩ := required_eq_ok.1 h
  exact required_eq_ok.2 ⟨f d, by simp [Entries.get?_modify, found], carries d a h⟩

/-- It carries over to a field with a default if it fixes the default. -/
theorem Carries.defaulting (carries : Carries read f g) {default a : α}
    (fixed : g default = default) (h : Reading.defaulting es key default read = .ok a) :
    Reading.defaulting (es.modify key f) key default read = .ok (g a) := by
  obtain ⟨absent, rfl⟩ | ⟨d, found, h⟩ := defaulting_eq_ok.1 h
  · exact defaulting_eq_ok.2 (.inl ⟨by simp [Entries.get?_modify, absent], fixed.symm⟩)
  · exact defaulting_eq_ok.2 (.inr ⟨f d, by simp [Entries.get?_modify, found], carries d a h⟩)

/-- It carries over to an optional field if it keeps null, and only null, as it is. -/
theorem Carries.optional (carries : Carries read f g) (null : ∀ d, f d = .null ↔ d = .null)
    {o : Option α} (was : Reading.optional es key read = .ok o) :
    Reading.optional (es.modify key f) key read = .ok (o.map g) := by
  obtain ⟨absent, rfl⟩ | ⟨d, a, found, ne, h, rfl⟩ := optional_eq_ok.1 was
  · refine optional_eq_ok.2 (.inl ⟨?_, rfl⟩)
    rw [Entries.get_modify_self ((null _).2 rfl), absent, (null _).2 rfl]
  · exact optional_eq_ok.2 (.inr ⟨f d, g a, by simp [Entries.get?_modify, found],
      fun same => ne ((null d).1 same), carries d a h, rfl⟩)

/-- A change of all items carries over to the list read. -/
theorem carries_listOf (carries : Carries read f g) :
    Carries (listOf read) (onItems f) (List.map g) := by
  intro d as h
  obtain ⟨ds, rfl, items⟩ := listOf_eq_ok.1 h
  refine listOf_eq_ok.2 ⟨ds.map f, rfl, ?_⟩
  rw [List.forall₂_map_left_iff, List.forall₂_map_right_iff]
  exact items.imp carries

/-- A change of a map carries over to the record read of its fields. -/
theorem carries_record {name : String} {fields : Entries → Checked α} {change : Entries → Entries}
    (carries : ∀ es a, fields es = .ok a → fields (change es) = .ok (g a)) :
    Carries (record name fields) (onMap change) g := by
  intro d a h
  obtain ⟨es, rfl, h⟩ := record_eq_ok.1 h
  exact record_eq_ok.2 ⟨change es, rfl, carries es a h⟩

end Reading

/-- Changing the fields of maps makes nothing null. -/
theorem Document.onMap_eq_null {f : Entries → Entries} (d : Document) :
    onMap f d = .null ↔ d = .null := by
  cases d <;> simp [onMap]

theorem Document.onItems_eq_null {f : Document → Document} (d : Document) :
    onItems f d = .null ↔ d = .null := by
  cases d <;> simp [onItems]

/-- A rename neither makes a value null nor fills one that is. -/
theorem Renaming.value_eq_null {r : Renaming} (d : Document) : r.value d = .null ↔ d = .null := by
  unfold Renaming.value
  split
  case isTrue old => simp [Document.isText_iff.1 old]
  case isFalse => rfl

/-! ## Renamed references -/

namespace Reading

variable {r : Renaming}

/-- Renaming an id in a document renames the text read of it. -/
theorem carries_text (r : Renaming) : Carries text r.value r.id := by
  intro d s h
  obtain rfl := text_eq_ok.1 h
  simp

/-- The renamed id is a text again where empty ones are refused, unless the new id is empty. -/
theorem carries_someText (new : r.new ≠ "") : Carries someText r.value r.id := by
  intro d s h
  obtain ⟨rfl, some⟩ := someText_eq_ok.1 h
  refine someText_eq_ok.2 ⟨Renaming.value_text s, ?_⟩
  unfold Renaming.id
  split
  · exact new
  · exact some

/-- What is renamed in the entry of a condition is renamed in the condition read. -/
theorem carries_condition (new : r.new ≠ "") :
    Carries condition (onMap r.inCondition) (·.renamed r) := by
  refine carries_record fun es c h => ?_
  simp only [Checked.functor_map_eq, Checked.seq_eq_ok, Checked.map_eq_ok,
    Checked.exists_exists_and_and, exists_eq_left'] at h ⊢
  obtain ⟨operator, compared, value, told, target, leads, rfl⟩ := h
  refine ⟨operator, ?_, value, ?_, r.id target, (carries_someText new).required leads, rfl⟩
  · rwa [Renaming.inCondition, required_modify (by decide)]
  · rwa [Renaming.inCondition, required_modify (by decide)]

/-- The same for decisions. -/
theorem carries_decision (new : r.new ≠ "") :
    Carries decision (onMap r.inDecision) (·.renamed r) := by
  refine carries_record fun es x h => ?_
  simp only [Checked.functor_map_eq, Checked.seq_eq_ok, Checked.map_eq_ok,
    Checked.exists_exists_and_and, exists_eq_left'] at h ⊢
  obtain ⟨action, done, conditions, tested, fallback, leads, position, placed, rfl⟩ := h
  have default := (carries_someText new).required leads
  refine ⟨action, ?_, conditions.map (·.renamed r), ?_, r.id fallback, ?_, position, ?_, rfl⟩
  · rwa [Renaming.inDecision, required_modify (by decide), required_modify (by decide)]
  · refine (carries_listOf (carries_condition new)).defaulting rfl ?_
    rwa [defaulting_modify (by decide)]
  · rwa [Renaming.inDecision, required_modify (by decide)]
  · rwa [Renaming.inDecision, optional_modify (by decide), optional_modify (by decide)]

/-- The same for functions. -/
theorem carries_nodeFunction (new : r.new ≠ "") :
    Carries nodeFunction (onMap r.inFunction) (·.renamed r) := by
  refine carries_record fun es x h => ?_
  simp only [Checked.functor_map_eq, Checked.seq_eq_ok, Checked.map_eq_ok,
    Checked.exists_exists_and_and, exists_eq_left'] at h ⊢
  obtain ⟨signature, signed, target, leads, decision, decided, rfl⟩ := h
  refine ⟨signature, ?_, target.map r.id, ?_, decision.map (·.renamed r), ?_, rfl⟩
  · rwa [Renaming.inFunction, signatureOf_modify (by decide), signatureOf_modify (by decide)]
  · rw [Renaming.inFunction, optional_modify (by decide)]
    exact (carries_text r).optional Renaming.value_eq_null leads
  · refine (carries_decision new).optional Document.onMap_eq_null ?_
    rwa [optional_modify (by decide)]

/-- The same for the data of a node. -/
theorem carries_nodeData (new : r.new ≠ "") :
    Carries nodeData (onMap r.inData) (·.renamed r) := by
  refine carries_record fun es x h => ?_
  simp only [Checked.functor_map_eq, Checked.seq_eq_ok, Checked.map_eq_ok,
    Checked.exists_exists_and_and, exists_eq_left', Renaming.inData] at h ⊢
  obtain ⟨label, labelled, roleMessages, spoken, taskMessages, tasked, functions, called,
    preActions, before, postActions, after, strategy, kept, respond, told, others, unknown,
    rfl⟩ := h
  have functions' := (carries_listOf (carries_nodeFunction new)).optional
    Document.onItems_eq_null called
  refine ⟨label, ?_, roleMessages, ?_, taskMessages, ?_, _, functions', preActions, ?_, postActions,
    ?_, strategy, ?_, respond, ?_, others, ?_, rfl⟩
  all_goals first
    | rwa [optional_modify (by decide)]
    | rwa [otherData_modify (by decide)]

/-- A node whose references are renamed is read as the node with its references renamed. -/
theorem carries_node (new : r.new ≠ "") : Carries node (onMap r.inNode) (·.renamed r) := by
  refine carries_record fun es n h => ?_
  simp only [Checked.functor_map_eq, Checked.seq_eq_ok, Checked.map_eq_ok,
    Checked.exists_exists_and_and, exists_eq_left', Renaming.inNode] at h ⊢
  obtain ⟨id, named, role, typed, position, placed, data, told, rfl⟩ := h
  refine ⟨id, ?_, role, ?_, position, ?_, data.renamed r,
    (carries_nodeData new).defaulting rfl told, rfl⟩
  · rwa [required_modify (by decide)]
  · rwa [defaulting_modify (by decide)]
  · rwa [required_modify (by decide)]

end Reading
end Dialogue
