import Dialogue.Document.Alike
import Dialogue.Proofs.Number.Zero
import Mathlib.Data.List.Forall2
import Mathlib.Data.List.Perm.Basic

/-!
# Documents that hold the same

Documents hold the same when their scalars are one or equal in value, their lists go item by item,
and their maps have the same keys in any order. A value is the same as itself even where it is no
number; apart from such floats, documents that hold the same are alike.
-/

namespace Dialogue

/-- Scalars that are one, or equal in value. -/
def Scalar.Same (a b : Scalar) : Prop := a = b ∨ a.alike b

/-- A scalar other than the float that is no number. -/
def Scalar.Defined : Scalar → Prop
  | .float x => x.isNaN = false
  | _ => True

/-- Every scalar is alike to itself but for what is not a number. -/
theorem Scalar.alike_self {s : Scalar} (defined : s.Defined) : s.alike s := by
  cases s with
  | float x =>
    simp only [Scalar.alike]
    cases Scalar.wholeValue? (.float x) with
    | none => exact Number.beq_self defined
    | some n => simp
  | _ => simp [Scalar.alike, Scalar.wholeValue?]

namespace Document

mutual

def Same : Document → Document → Prop
  | .scalar a, .scalar b => a.Same b
  | .list xs, .list ys => SameItems xs ys
  | .map es, .map fs => SameEntries es fs
  | _, _ => False

def SameItems : List Document → List Document → Prop
  | [], [] => True
  | x :: xs, y :: ys => Same x y ∧ SameItems xs ys
  | _, _ => False

/-- Every entry has its like under the same key, and none is left over. -/
def SameEntries : Entries → Entries → Prop
  | [], fs => fs = []
  | (k, x) :: es, fs => ∃ before y after,
      fs = before ++ (k, y) :: after ∧ Same x y ∧ SameEntries es (before ++ after)

end

mutual

/-- No float in the document is no number, and no two keys of a map are alike. -/
def Defined : Document → Prop
  | .scalar s => s.Defined
  | .list xs => DefinedItems xs
  | .map es => (es.map Prod.fst).Pairwise (fun j k => j.alike k = false) ∧ DefinedEntries es

def DefinedItems : List Document → Prop
  | [] => True
  | x :: xs => Defined x ∧ DefinedItems xs

def DefinedEntries : Entries → Prop
  | [] => True
  | (k, x) :: es => k.Defined ∧ Defined x ∧ DefinedEntries es

end

/-! ## Everything is the same as itself -/

mutual

/-- A document is the same as itself, numbers or none. -/
theorem same_refl : ∀ d : Document, Same d d
  | .scalar _ => .inl rfl
  | .list xs => sameItems_refl xs
  | .map es => sameEntries_refl es

theorem sameItems_refl : ∀ xs : List Document, SameItems xs xs
  | [] => trivial
  | x :: xs => ⟨same_refl x, sameItems_refl xs⟩

theorem sameEntries_refl : ∀ es : Entries, SameEntries es es
  | [] => rfl
  | (_, x) :: es => ⟨[], x, es, rfl, same_refl x, sameEntries_refl es⟩

end

/-- Lists are the same item by item. -/
theorem sameItems_of_forall₂ {xs ys : List Document} (same : List.Forall₂ Same xs ys) :
    SameItems xs ys := by
  induction same with
  | nil => trivial
  | cons h _ ih => exact ⟨h, ih⟩

/-- Entries that go one by one after those of one map are put in another order. -/
theorem sameEntries_of_perm {es fs gs : Entries} (perm : fs.Perm gs)
    (same : List.Forall₂ (fun e g => e.1 = g.1 ∧ Same e.2 g.2) es gs) : SameEntries es fs := by
  induction es generalizing fs gs with
  | nil =>
    cases same
    exact perm.eq_nil
  | cons e es ih =>
    obtain ⟨k, x⟩ := e
    cases same with
    | @cons _ g _ gs h rest =>
      obtain ⟨j, y⟩ := g
      obtain ⟨rfl, h⟩ : k = j ∧ Same x y := h
      obtain ⟨before, after, rfl⟩ := List.append_of_mem (perm.symm.subset (.head gs))
      have left : (before ++ after).Perm gs :=
        List.Perm.cons_inv (List.perm_middle.symm.trans perm)
      exact ⟨before, y, after, rfl, h, ih left rest⟩

theorem sameEntries_of_forall₂ {es fs : Entries}
    (same : List.Forall₂ (fun e f => e.1 = f.1 ∧ Same e.2 f.2) es fs) : SameEntries es fs :=
  sameEntries_of_perm (.refl fs) same

/-! ## Alike documents -/

theorem length_of_sameEntries {es fs : Entries} (same : SameEntries es fs) :
    es.length = fs.length := by
  induction es generalizing fs with
  | nil =>
    obtain rfl : fs = [] := same
    rfl
  | cons e es ih =>
    obtain ⟨before, y, after, rfl, -, rest⟩ := same
    have length := ih rest
    simp only [List.length_append, List.length_cons] at length ⊢
    omega

/-- An entry of one map has its like in the other. -/
theorem mem_of_sameEntries {es fs : Entries} (same : SameEntries es fs) :
    ∀ e ∈ es, ∃ y, (e.1, y) ∈ fs ∧ Same e.2 y := by
  induction es generalizing fs with
  | nil => simp
  | cons e es ih =>
    obtain ⟨before, y, after, rfl, here, rest⟩ := same
    rintro e (_ | ⟨_, member⟩)
    · exact ⟨y, by simp, here⟩
    · obtain ⟨z, found, hz⟩ := ih rest e member
      exact ⟨z, by simp only [List.mem_append, List.mem_cons] at found ⊢; tauto, hz⟩

/-- Everything in a defined map is defined. -/
theorem defined_of_mem {es : Entries} (defined : DefinedEntries es) {e : Scalar × Document}
    (member : e ∈ es) : e.1.Defined ∧ e.2.Defined := by
  induction es with
  | nil => cases member
  | cons f es ih =>
    obtain ⟨key, value, rest⟩ := defined
    cases member with
    | head => exact ⟨key, value⟩
    | tail _ member => exact ih rest member

theorem defined_of_mem_items {xs : List Document} (defined : DefinedItems xs) {d : Document}
    (member : d ∈ xs) : d.Defined := by
  induction xs with
  | nil => cases member
  | cons x xs ih =>
    cases member with
    | head => exact defined.1
    | tail _ member => exact ih defined.2 member

theorem defined_of_get? {es : Entries} (defined : DefinedEntries es) {key : String} {d : Document}
    (found : es.get? key = some d) : d.Defined := by
  induction es with
  | nil => cases found
  | cons e es ih =>
    obtain ⟨-, value, rest⟩ := defined
    unfold Entries.get? at found
    split at found
    · exact Option.some.inj found ▸ value
    · exact ih rest found

theorem defined_get {es : Entries} (defined : DefinedEntries es) (key : String) :
    (es.get key).Defined := by
  cases h : es.get? key with
  | none => simp [Entries.get, h, Defined, Scalar.Defined]
  | some d => simpa [Entries.get, h] using defined_of_get? defined h

/-- Where keys are apart, a key finds its own entry. -/
theorem find?_of_mem {es : Entries} {k : Scalar} {d : Document}
    (apart : (es.map Prod.fst).Pairwise fun i j => i.alike j = false) (key : k.Defined)
    (member : (k, d) ∈ es) : Entries.find? es k = some d := by
  induction es with
  | nil => cases member
  | cons e es ih =>
    obtain ⟨first, rest⟩ := List.pairwise_cons.1 apart
    cases member with
    | head => simp [Entries.find?, Scalar.alike_self key]
    | tail _ member =>
      have unlike : e.1.alike k = false := first k (List.mem_map_of_mem (f := Prod.fst) member)
      simp [Entries.find?, unlike, ih rest member]

mutual

/-- Documents that hold the same are alike, but for floats that are no numbers. -/
theorem alike_of_same : ∀ {d e : Document}, Same d e → e.Defined → d.alike e
  | .scalar a, .scalar b, same, defined => by
    obtain rfl | same := same
    · exact Scalar.alike_self defined
    · exact same
  | .list xs, .list ys, same, defined => alikeList_of_same same defined
  | .map es, .map fs, same, ⟨apart, defined⟩ => by
    simp only [alike, length_of_sameEntries same, BEq.rfl, Bool.true_and]
    exact alikeEntries_of_mem apart defined (mem_of_sameEntries same)

/-- Lists that are the same compare as equal. -/
theorem alikeList_of_same : ∀ {xs ys : List Document}, SameItems xs ys → DefinedItems ys →
    alikeList xs ys
  | [], [], _, _ => rfl
  | x :: xs, y :: ys, ⟨here, rest⟩, ⟨first, others⟩ => by
    simp [alikeList, alike_of_same here first, alikeList_of_same rest others]

/-- So do maps, in whatever order their entries stand. -/
theorem alikeEntries_of_mem {fs : Entries}
    (apart : (fs.map Prod.fst).Pairwise fun i j => i.alike j = false)
    (defined : DefinedEntries fs) :
    ∀ {es : Entries}, (∀ e ∈ es, ∃ y, (e.1, y) ∈ fs ∧ Same e.2 y) → alikeEntries es fs
  | [], _ => rfl
  | (k, x) :: es, members => by
    obtain ⟨y, member, here⟩ := members _ (.head _)
    obtain ⟨key, value⟩ := defined_of_mem defined member
    simp [alikeEntries, find?_of_mem apart key member, alike_of_same here value,
      alikeEntries_of_mem apart defined fun e h => members e (.tail _ h)]

end

end Document
end Dialogue
