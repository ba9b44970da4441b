import Dialogue.Proofs.Document.Holds
import Dialogue.Yaml.Value

/-!
# Documents among values

A document is a value as it is: it is the one that JSON has for that value, and the one that the
value counts as. Values in which no map has two alike keys count as such documents.
-/

namespace Dialogue

namespace Yaml

/-- No key is alike to a later one. -/
def Atom.Apart (ks : List Atom) : Prop := ks.Pairwise fun j k => j.alike k = false

namespace Value

/-! ## Documents as values -/

@[simp] theorem ofDocuments_eq (xs : List Document) : ofDocuments xs = xs.map ofDocument := by
  induction xs with
  | nil => rfl
  | cons x xs ih => rw [ofDocuments, ih, List.map_cons]

@[simp] theorem ofEntries_eq (es : Entries) :
    ofEntries es = es.map fun e => (.scalar e.1, ofDocument e.2) := by
  induction es with
  | nil => rfl
  | cons e es ih => rw [ofEntries, ih, List.map_cons]

theorem documents?_map {xs : List Document}
    (each : ∀ x ∈ xs, (ofDocument x).document? = some x) :
    documents? (xs.map ofDocument) = some xs := by
  induction xs with
  | nil => rfl
  | cons x xs ih =>
    obtain ⟨first, rest⟩ := List.forall_mem_cons.1 each
    simp [documents?, first, ih rest]

theorem entries?_map {es : Entries} (each : ∀ e ∈ es, (ofDocument e.2).document? = some e.2) :
    entries? (es.map fun e => (.scalar e.1, ofDocument e.2)) = some es := by
  induction es with
  | nil => rfl
  | cons e es ih =>
    obtain ⟨first, rest⟩ := List.forall_mem_cons.1 each
    simp [entries?, Atom.scalar?, first, ih rest]

/-- JSON has for a document the document itself. -/
@[simp] theorem document?_ofDocument (d : Document) : (ofDocument d).document? = some d := by
  induction d using Document.byParts with
  | scalar s => rfl
  | list xs ih => simp [ofDocument, document?, documents?_map ih]
  | map es ih => simp [ofDocument, document?, entries?_map ih]

/-- A document is told by its value. -/
theorem ofDocument_injective : Function.Injective ofDocument := by
  intro d e same
  have forms := congrArg document? same
  simpa using forms

@[simp] theorem isNull_ofDocument (d : Document) : (ofDocument d).isNull = d.isNull := by
  cases d with
  | scalar s => cases s <;> rfl
  | _ => rfl

@[simp] theorem field_ofDocument (es : Entries) (key : String) :
    (ofDocument (.map es)).field key = ofDocument (es.get key) := by
  rw [ofDocument, ofEntries_eq, field]
  induction es with
  | nil => rfl
  | cons e es ih =>
    obtain ⟨k, x⟩ := e
    by_cases same : k = .text key
    · simp [firstOf, Entries.get, same]
    · simpa [firstOf, Entries.get, same] using ih

/-! ## Values as documents -/

theorem typedItems_eq (xs : List Value) : typedItems xs = xs.map typed := by
  induction xs with
  | nil => rfl
  | cons x xs ih => rw [typedItems, ih, List.map_cons]

/-- Keys that become one in JSON keep the last value. -/
theorem typedEntries_eq (front : Entries) (es : Fields) : typedEntries front es =
    (es.map fun e => (e.1.typed, e.2.typed)).foldl (fun front e => front.insert e.1 e.2) front := by
  induction es generalizing front with
  | nil => rfl
  | cons e es ih => rw [typedEntries, ih, List.map_cons, List.foldl_cons]

/-- A document counts as itself. -/
theorem typed_ofDocument {d : Document} (distinct : d.Distinct) : (ofDocument d).typed = d := by
  induction d using Document.byParts with
  | scalar s => rfl
  | list xs ih =>
    have each (x : Document) (member : x ∈ xs) : (typed ∘ ofDocument) x = x :=
      ih x member (Document.holds_list.1 distinct x member)
    rw [ofDocument, ofDocuments_eq, typed, typedItems_eq, List.map_map,
      (List.map_congr_left each).trans (List.map_id' xs)]
  | map es ih =>
    obtain ⟨apart, values⟩ := Document.holds_map.1 distinct
    have each (e : Scalar × Document) (member : e ∈ es) :
        ((Atom.scalar e.1).typed, (ofDocument e.2).typed) = e := by
      rw [ih e member (values e member)]
      rfl
    have typed : (es.map fun e => ((Atom.scalar e.1).typed, (ofDocument e.2).typed)) = es := by
      rw [List.map_congr_left each, List.map_id']
    rw [ofDocument, ofEntries_eq, Value.typed, typedEntries_eq, List.map_map]
    simp only [Function.comp_def, typed]
    rw [Entries.foldl_insert (by simpa using apart), List.nil_append]

/-! ## Distinct keys -/

/-- A value in a mapping is smaller than the mapping. -/
theorem sizeOf_field_lt {es : Fields} {e : Atom × Value} (member : e ∈ es) :
    sizeOf e.2 < sizeOf es := by
  have entry : sizeOf e < sizeOf es := List.sizeOf_lt_of_mem member
  obtain ⟨k, x⟩ := e
  simp only [Prod.mk.sizeOf_spec] at entry ⊢
  omega

/-- Induction on the parts of a value. -/
@[elab_as_elim]
theorem byParts {P : Value → Prop} (atom : ∀ a, P (.atom a))
    (list : ∀ xs : List Value, (∀ x ∈ xs, P x) → P (.list xs))
    (pair : ∀ a b, P a → P b → P (.pair a b)) (set : ∀ members, P (.set members))
    (map : ∀ es : Fields, (∀ e ∈ es, P e.2) → P (.map es)) : ∀ v, P v
  | .atom a => atom a
  | .list xs => list xs fun x _ => byParts atom list pair set map x
  | .pair a b => pair a b (byParts atom list pair set map a) (byParts atom list pair set map b)
  | .set members => set members
  | .map es => map es fun e _ => byParts atom list pair set map e.2
termination_by v => sizeOf v
decreasing_by
  · have smaller := List.sizeOf_lt_of_mem ‹_›
    simp only [Value.list.sizeOf_spec]
    omega
  · simp only [Value.pair.sizeOf_spec]
    omega
  · simp only [Value.pair.sizeOf_spec]
    omega
  · have smaller := sizeOf_field_lt ‹_›
    simp only [Value.map.sizeOf_spec]
    omega

theorem distinct_typedEntries {front : Entries} {es : Fields}
    (distinct : (Document.map front).Distinct) (each : ∀ e ∈ es, e.2.typed.Distinct) :
    (Document.map (typedEntries front es)).Distinct := by
  induction es generalizing front with
  | nil => exact distinct
  | cons e es ih =>
    obtain ⟨first, rest⟩ := List.forall_mem_cons.1 each
    exact ih (Entries.distinct_insert distinct first) rest

/-- At a typed field keys stay apart. -/
theorem distinct_typed (v : Value) : v.typed.Distinct := by
  have scalar (s : Scalar) : (Document.scalar s).Distinct := Document.holds_scalar.2 trivial
  induction v using byParts with
  | atom a => exact scalar _
  | list xs ih =>
    rw [typed, typedItems_eq]
    exact Document.holds_list.2 (List.forall_mem_map.2 ih)
  | pair a b first second =>
    have parts : ∀ d ∈ [a.typed, b.typed], d.Distinct := by simp [first, second]
    exact Document.holds_list.2 parts
  | set members => exact Document.holds_list.2 (List.forall_mem_map.2 fun a _ => scalar _)
  | map es ih => exact distinct_typedEntries Document.distinct_empty ih

mutual

/-- No map of the value has two alike keys. -/
def Distinct : Value → Prop
  | .atom _ | .set _ => True
  | .list xs => DistinctItems xs
  | .pair a b => Distinct a ∧ Distinct b
  | .map es => Atom.Apart (es.map Prod.fst) ∧ DistinctFields es

def DistinctItems : List Value → Prop
  | [] => True
  | x :: xs => Distinct x ∧ DistinctItems xs

def DistinctFields : Fields → Prop
  | [] => True
  | (_, x) :: es => Distinct x ∧ DistinctFields es

end

theorem distinct_atom (a : Atom) : (atom a).Distinct := by simp [Distinct]

theorem distinct_set (members : List Atom) : (set members).Distinct := by simp [Distinct]

theorem distinct_pair {a b : Value} : (pair a b).Distinct ↔ a.Distinct ∧ b.Distinct := by
  simp [Distinct]

theorem distinct_list {xs : List Value} : (list xs).Distinct ↔ ∀ x ∈ xs, x.Distinct := by
  rw [Distinct]
  induction xs with
  | nil => simp [DistinctItems]
  | cons x xs ih => simp [DistinctItems, ih]

/-- Keys are apart here and all the way down. -/
theorem distinct_map {es : Fields} :
    (map es).Distinct ↔ Atom.Apart (es.map Prod.fst) ∧ ∀ e ∈ es, e.2.Distinct := by
  have fields : DistinctFields es ↔ ∀ e ∈ es, e.2.Distinct := by
    induction es with
    | nil => simp [DistinctFields]
    | cons e es ih => simp [DistinctFields, ih]
  rw [Distinct, fields]

theorem distinct_empty : (map []).Distinct := distinct_map.2 ⟨List.Pairwise.nil, by simp⟩

theorem apart_map_scalar {ks : List Scalar} : Atom.Apart (ks.map .scalar) ↔ Scalar.Apart ks := by
  rw [Atom.Apart, List.pairwise_map]
  rfl

@[simp] theorem distinct_ofDocument {d : Document} : (ofDocument d).Distinct ↔ d.Distinct := by
  induction d using Document.byParts with
  | scalar s => exact iff_of_true (distinct_atom _) (Document.holds_scalar.2 trivial)
  | list xs ih =>
    rw [ofDocument, ofDocuments_eq, distinct_list, List.forall_mem_map, Document.Distinct,
      Document.holds_list]
    exact forall₂_congr ih
  | map es ih =>
    have keys : (es.map fun e => (Atom.scalar e.1, ofDocument e.2)).map Prod.fst =
        (es.map Prod.fst).map .scalar := by
      simp
    rw [ofDocument, ofEntries_eq, distinct_map, keys, apart_map_scalar, List.forall_mem_map,
      Document.Distinct, Document.holds_map]
    exact and_congr_right fun _ => forall₂_congr ih

theorem distinct_firstOf {es : Fields} (each : ∀ e ∈ es, e.2.Distinct) (chosen : Atom → Bool) :
    (firstOf chosen es).Distinct := by
  induction es with
  | nil => exact distinct_atom _
  | cons e es ih =>
    obtain ⟨first, rest⟩ := List.forall_mem_cons.1 each
    unfold firstOf
    split
    · exact first
    · exact ih rest

theorem Distinct.field {v : Value} (distinct : v.Distinct) (key : String) :
    (v.field key).Distinct := by
  cases v with
  | map es => exact distinct_firstOf (distinct_map.1 distinct).2 _
  | _ => exact distinct_atom _

theorem Distinct.named {v : Value} (distinct : v.Distinct) (key : String) :
    (v.named key).Distinct := by
  cases v with
  | map es =>
    exact distinct_firstOf (fun e member => (distinct_map.1 distinct).2 e (by simpa using member)) _
  | _ => exact distinct_atom _

theorem Distinct.items {v : Value} (distinct : v.Distinct) : ∀ x ∈ v.items, x.Distinct := by
  cases v with
  | list xs => exact distinct_list.1 distinct
  | _ => simp [Value.items]

/-- Setting a key keeps keys apart. -/
theorem distinct_insert {es : Fields} {k : Atom} {v : Value} (distinct : (map es).Distinct)
    (value : v.Distinct) : (map (insert es k v)).Distinct := by
  obtain ⟨apart, each⟩ := distinct_map.1 distinct
  refine distinct_map.2 ⟨?_, fun e member => ?_⟩
  · rcases keys_insertAlike with same | ⟨more, unlike⟩
    · rwa [insert, same]
    · rw [insert, more]
      exact List.pairwise_append.2 ⟨apart, List.pairwise_singleton _ _, by simpa using unlike⟩
  · rcases mem_insertAlike member with old | ⟨new, -⟩
    · exact each e old
    · rwa [new]

end Value
end Yaml
end Dialogue
