import Dialogue.Document.Alike
import Dialogue.Proofs.Document.Entries
import Mathlib.Data.List.Basic

/-!
# What holds all through a document

`Holds S M` says that every value of a document that is a scalar satisfies `S`, and the keys of
every map, taken together, satisfy `M`. Readers build maps by insertion, which keeps keys apart.
-/

namespace Dialogue

namespace Document

variable {S S' : Scalar → Prop} {M M' : List Scalar → Prop}

theorem sizeOf_value_lt {es : Entries} {e : Scalar × Document} (member : e ∈ es) :
    sizeOf e.2 < sizeOf es := by
  have entry : sizeOf e < sizeOf es := List.sizeOf_lt_of_mem member
  obtain ⟨k, x⟩ := e
  simp only [Prod.mk.sizeOf_spec] at entry ⊢
  omega

/-- Induction on the parts of a document. -/
@[elab_as_elim]
theorem byParts {P : Document → Prop} (scalar : ∀ s, P (.scalar s))
    (list : ∀ xs : List Document, (∀ x ∈ xs, P x) → P (.list xs))
    (map : ∀ es : Entries, (∀ e ∈ es, P e.2) → P (.map es)) : ∀ d, P d
  | .scalar s => scalar s
  | .list xs => list xs fun x _ => byParts scalar list map x
  | .map es => map es fun e _ => byParts scalar list map e.2
termination_by d => sizeOf d
decreasing_by
  · have smaller := List.sizeOf_lt_of_mem ‹_›
    simp_wf
    omega
  · have smaller := sizeOf_value_lt ‹_›
    simp_wf
    omega

mutual

def Holds (S : Scalar → Prop) (M : List Scalar → Prop) : Document → Prop
  | .scalar s => S s
  | .list xs => HoldsItems S M xs
  | .map es => M (es.map Prod.fst) ∧ HoldsEntries S M es

def HoldsItems (S : Scalar → Prop) (M : List Scalar → Prop) : List Document → Prop
  | [] => True
  | x :: xs => Holds S M x ∧ HoldsItems S M xs

def HoldsEntries (S : Scalar → Prop) (M : List Scalar → Prop) : Entries → Prop
  | [] => True
  | (_, x) :: es => Holds S M x ∧ HoldsEntries S M es

end

@[simp] theorem holds_scalar {s : Scalar} : Holds S M (.scalar s) ↔ S s := by simp [Holds]

@[simp] theorem holds_list {xs : List Document} :
    Holds S M (.list xs) ↔ ∀ x ∈ xs, x.Holds S M := by
  rw [Holds]
  induction xs with
  | nil => simp [HoldsItems]
  | cons x xs ih => simp [HoldsItems, ih]

@[simp] theorem holds_map {es : Entries} :
    Holds S M (.map es) ↔ M (es.map Prod.fst) ∧ ∀ e ∈ es, e.2.Holds S M := by
  have entries : HoldsEntries S M es ↔ ∀ e ∈ es, e.2.Holds S M := by
    induction es with
    | nil => simp [HoldsEntries]
    | cons e es ih => simp [HoldsEntries, ih]
  rw [Holds, entries]

/-- What holds throughout a map holds of the value of each field. -/
theorem Holds.get? {es : Entries} {key : String} {d : Document} (h : Holds S M (.map es))
    (found : es.get? key = some d) : d.Holds S M :=
  (holds_map.1 h).2 _ (Entries.mem_of_get? found)

/-- A property of all parts may be weakened part by part. -/
theorem Holds.imp {d : Document} (h : d.Holds S M) (scalars : ∀ s, S s → S' s)
    (keys : ∀ ks, M ks → M' ks) : d.Holds S' M' := by
  induction d using byParts with
  | scalar s => exact holds_scalar.2 (scalars s (holds_scalar.1 h))
  | list xs ih => exact holds_list.2 fun x member => ih x member (holds_list.1 h x member)
  | map es ih =>
    obtain ⟨own, values⟩ := holds_map.1 h
    exact holds_map.2 ⟨keys _ own, fun e member => ih e member (values e member)⟩

theorem Holds.and {d : Document} (h : d.Holds S M) (h' : d.Holds S' M') :
    d.Holds (fun s => S s ∧ S' s) fun ks => M ks ∧ M' ks := by
  induction d using byParts with
  | scalar s => exact holds_scalar.2 ⟨holds_scalar.1 h, holds_scalar.1 h'⟩
  | list xs ih =>
    exact holds_list.2 fun x member => ih x member (holds_list.1 h x member)
      (holds_list.1 h' x member)
  | map es ih =>
    obtain ⟨own, values⟩ := holds_map.1 h
    obtain ⟨own', values'⟩ := holds_map.1 h'
    exact holds_map.2 ⟨⟨own, own'⟩, fun e member => ih e member (values e member)
      (values' e member)⟩

/-- Every scalar of the document, be it a value or a key. -/
def Every (P : Scalar → Prop) (d : Document) : Prop := d.Holds P fun ks => ∀ k ∈ ks, P k

@[simp] theorem every_scalar {P : Scalar → Prop} {s : Scalar} : Every P (.scalar s) ↔ P s :=
  holds_scalar

@[simp] theorem every_list {P : Scalar → Prop} {xs : List Document} :
    Every P (.list xs) ↔ ∀ x ∈ xs, x.Every P := holds_list

@[simp] theorem every_map {P : Scalar → Prop} {es : Entries} :
    Every P (.map es) ↔ ∀ e ∈ es, P e.1 ∧ e.2.Every P := by
  rw [Every, holds_map, List.forall_mem_map, ← forall₂_and]
  rfl

end Document

/-- No key is alike to a later one. -/
def Scalar.Apart (ks : List Scalar) : Prop := ks.Pairwise fun j k => j.alike k = false

theorem Scalar.Apart.sublist {js ks : List Scalar} (apart : Apart ks) (sub : js.Sublist ks) :
    Apart js := List.Pairwise.sublist sub apart

/-- Texts are apart as keys just when they differ. -/
theorem Scalar.apart_map_text {names : List String} :
    Apart (names.map .text) ↔ names.Nodup := by
  rw [Apart, List.pairwise_map]
  exact iff_of_eq (congrArg (List.Pairwise · names) (by
    funext a b
    simp [alike, wholeValue?]))

/-- A key that is unlike all others may stand behind them. -/
theorem Scalar.Apart.concat {ks : List Scalar} {k : Scalar} (apart : Apart ks)
    (unlike : ∀ j ∈ ks, j.alike k = false) : Apart (ks ++ [k]) :=
  List.pairwise_append.2 ⟨apart, List.pairwise_singleton _ _, by simpa using unlike⟩

/-- No map of the document has two alike keys. -/
def Document.Distinct (d : Document) : Prop := d.Holds (fun _ => True) Scalar.Apart

/-! ## Insertion -/

section

variable {κ α : Type} {alike : κ → κ → Bool} {es : List (κ × α)} {k : κ} {a : α}

/-- After an insertion there are the old entries, and the new value under some key. -/
theorem mem_insertAlike {e : κ × α} (member : e ∈ insertAlike alike es k a) :
    e ∈ es ∨ (e.2 = a ∧ (e.1 = k ∨ e.1 ∈ es.map Prod.fst)) := by
  induction es with
  | nil =>
    obtain rfl : e = (k, a) := by simpa [insertAlike] using member
    exact .inr ⟨rfl, .inl rfl⟩
  | cons f es ih =>
    obtain ⟨j, x⟩ := f
    unfold insertAlike at member
    split at member
    · rcases List.mem_cons.1 member with rfl | member
      · exact .inr ⟨rfl, .inr (by simp)⟩
      · exact .inl (.tail _ member)
    · rcases List.mem_cons.1 member with rfl | member
      · exact .inl (.head _)
      · rcases ih member with old | ⟨value, key⟩
        · exact .inl (.tail _ old)
        · exact .inr ⟨value, key.imp_right fun h => by simp [h]⟩

/-- An insertion keeps the keys, or adds its own at the end. -/
theorem keys_insertAlike :
    (insertAlike alike es k a).map Prod.fst = es.map Prod.fst ∨
      ((insertAlike alike es k a).map Prod.fst = es.map Prod.fst ++ [k] ∧
        ∀ j ∈ es.map Prod.fst, alike j k = false) := by
  induction es with
  | nil => exact .inr ⟨rfl, by simp⟩
  | cons f es ih =>
    obtain ⟨j, x⟩ := f
    by_cases like : alike j k
    · exact .inl (by simp [insertAlike, like])
    · rcases ih with same | ⟨more, unlike⟩
      · exact .inl (by simp [insertAlike, like, same])
      · exact .inr ⟨by simp [insertAlike, like, more], by simpa [like] using unlike⟩

/-- A key unlike all others goes to the end. -/
theorem insertAlike_of_unlike (unlike : ∀ j ∈ es.map Prod.fst, alike j k = false) :
    insertAlike alike es k a = es ++ [(k, a)] := by
  induction es with
  | nil => rfl
  | cons e es ih =>
    obtain ⟨j, x⟩ := e
    have first : alike j k = false := unlike j (by simp)
    have rest := ih fun i member => unlike i (by simp only [List.map_cons]; exact .tail _ member)
    simp [insertAlike, first, rest]

end

namespace Entries

variable {es : Entries} {k : Scalar} {d : Document}

/-- Entries with keys apart are there once they are inserted one after the other. -/
theorem foldl_insert {front es : Entries} (apart : Scalar.Apart ((front ++ es).map Prod.fst)) :
    es.foldl (fun front e => front.insert e.1 e.2) front = front ++ es := by
  induction es generalizing front with
  | nil => simp
  | cons e es ih =>
    have unlike : ∀ j ∈ front.map Prod.fst, j.alike e.1 = false := by
      rw [Scalar.Apart, List.map_append, List.pairwise_append] at apart
      exact fun j member => apart.2.2 j member e.1 (by simp)
    rw [List.foldl_cons, insert, insertAlike_of_unlike unlike, ih (by simpa using apart),
      List.append_assoc, List.singleton_append]

/-- An insertion keeps what holds, if new keys may join. -/
theorem holds_insert {S : Scalar → Prop} {M : List Scalar → Prop}
    (h : Document.Holds S M (.map es)) (value : d.Holds S M)
    (grows : ∀ ks, M ks → (∀ j ∈ ks, j.alike k = false) → M (ks ++ [k])) :
    Document.Holds S M (.map (es.insert k d)) := by
  obtain ⟨keys, values⟩ := Document.holds_map.1 h
  refine Document.holds_map.2 ⟨?_, fun e member => ?_⟩
  · rcases keys_insertAlike with same | ⟨more, unlike⟩
    · rwa [insert, same]
    · rw [insert, more]
      exact grows _ keys unlike
  · rcases mem_insertAlike member with old | ⟨new, -⟩
    · exact values e old
    · rwa [new]

/-- Insertion keeps the keys of all maps apart. -/
theorem distinct_insert (distinct : (Document.map es).Distinct) (value : d.Distinct) :
    (Document.map (es.insert k d)).Distinct :=
  holds_insert distinct value fun _ apart unlike => apart.concat unlike

end Entries

theorem Document.distinct_empty : (Document.map []).Distinct :=
  holds_map.2 ⟨List.Pairwise.nil, by simp⟩

end Dialogue
