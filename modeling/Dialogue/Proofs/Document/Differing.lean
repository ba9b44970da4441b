import Dialogue.Proofs.Document.Entries
import Dialogue.Proofs.Document.Holds
import Dialogue.Proofs.Document.Same

/-!
# Documents that differ in one place

Lists hold the same if their items do. Maps that agree but for what stands under one key hold the
same if that does.
-/

namespace Dialogue

namespace Entries

variable {es : Entries} {key : String}

/-- Writing back what is there changes nothing. -/
theorem put_get? {d : Document} (found : es.get? key = some d) : es.put key d = es := by
  rw [← modify_of_get? (f := fun _ => d) found]
  exact modify_of_fixed fun x here => Option.some.inj (found.symm.trans here)

theorem length_put_of_absent (absent : es.get? key = none) (d : Document) :
    (es.put key d).length = es.length + 1 := by
  have last : es.put key d = es ++ Entries.put [] key d := by
    rw [← put_append [] absent, List.append_nil]
  rw [last, List.length_append]
  rfl

/-- In a map whose keys are distinct a key has one place, which all that is written under it takes. -/
theorem exists_put_eq (apart : Scalar.Apart (es.map Prod.fst)) (key : String) :
    ∃ before after : Entries, (∀ e ∈ before ++ after, e.1 ≠ .text key) ∧
      ∀ d, es.put key d = before ++ (.text key, d) :: after := by
  induction es with
  | nil => exact ⟨[], [], nofun, fun _ => rfl⟩
  | cons e es ih =>
    obtain ⟨k, x⟩ := e
    obtain ⟨unlike, rest⟩ := List.pairwise_cons.1 apart
    by_cases here : k = .text key
    · subst here
      refine ⟨[], es, fun e member same => ?_, fun d => by simp [put]⟩
      have alike : (Scalar.text key).alike e.1 = false :=
        unlike e.1 (List.mem_map_of_mem (f := Prod.fst) member)
      rw [same, Scalar.alike_self (s := .text key) trivial] at alike
      cases alike
    · obtain ⟨before, after, others, place⟩ := ih rest
      exact ⟨(k, x) :: before, after, List.forall_mem_cons.2 ⟨here, others⟩,
        fun d => by simp [put, here, place d]⟩

end Entries

namespace Document

/-! ## Lists -/

theorem same_list_iff {xs ys : List Document} :
    Same (.list xs) (.list ys) ↔ List.Forall₂ Same xs ys := by
  refine ⟨fun same => ?_, sameItems_of_forall₂⟩
  have items : SameItems xs ys := same
  induction xs generalizing ys with
  | nil =>
    cases ys with
    | nil => exact .nil
    | cons y ys => cases items
  | cons x xs ih =>
    cases ys with
    | nil => cases items
    | cons y ys => exact .cons items.1 (ih items.2 items.2)

theorem same_map_iff {α : Type} {f g : α → Document} {as : List α} :
    Same (.list (as.map f)) (.list (as.map g)) ↔ ∀ a ∈ as, Same (f a) (g a) := by
  rw [same_list_iff, List.forall₂_map_left_iff, List.forall₂_map_right_iff, List.forall₂_same]

/-- Two lists zipped from the same items agree just when each pair of items does. -/
theorem same_zipWith_iff {α β : Type} {f g : α → β → Document} {as : List α} {bs : List β}
    (length : bs.length = as.length) {P : α → Prop} (each : ∀ a b, Same (f a b) (g a b) ↔ P a) :
    Same (.list (List.zipWith f as bs)) (.list (List.zipWith g as bs)) ↔ ∀ a ∈ as, P a := by
  rw [same_list_iff]
  induction as generalizing bs with
  | nil => simp
  | cons a as ih =>
    cases bs with
    | nil => cases length
    | cons b bs => simp [each, ih (Nat.succ.inj length)]

/-! ## Maps -/

variable {es : Entries} {key : String} {x y : Document}

/-- Maps that agree but for one key. -/
theorem same_entry_iff (before after : Entries) (others : ∀ e ∈ before ++ after, e.1 ≠ .text key) :
    Same (.map (before ++ (.text key, x) :: after)) (.map (before ++ (.text key, y) :: after)) ↔
      Same x y := by
  constructor
  · intro same
    obtain ⟨z, member, here⟩ := mem_of_sameEntries same (.text key, x) (by simp)
    obtain rfl : z = y := by
      simp only [List.mem_append, List.mem_cons, Prod.mk.injEq, true_and] at member
      rcases member with early | rfl | late
      · exact absurd rfl (others _ (List.mem_append_left _ early))
      · rfl
      · exact absurd rfl (others _ (List.mem_append_right _ late))
    exact here
  · intro here
    have refl (fs : Entries) : List.Forall₂ (fun e f => e.1 = f.1 ∧ Same e.2 f.2) fs fs :=
      List.forall₂_same.2 fun e _ => ⟨rfl, same_refl e.2⟩
    exact sameEntries_of_forall₂ (List.rel_append (refl before) (.cons ⟨rfl, here⟩ (refl after)))

variable (apart : Scalar.Apart (es.map Prod.fst))

include apart

/-- Maps that differ in one field agree just when its values do. -/
theorem same_put_iff : Same (.map (es.put key x)) (.map (es.put key y)) ↔ Same x y := by
  obtain ⟨before, after, others, place⟩ := Entries.exists_put_eq apart key
  rw [place, place, same_entry_iff before after others]

/-- A map and one with another entry written are the same if what the first had there was. -/
theorem same_self_put_iff {fs : Entries} :
    Same (.map es) (.map (es.put key (.map fs))) ↔ Same (es.get key) (.map fs) := by
  cases found : es.get? key with
  | some d =>
    rw [Entries.get_of_get? found]
    nth_rewrite 1 [← Entries.put_get? found]
    exact same_put_iff apart
  | none =>
    have other : ¬Same (es.get key) (.map fs) := by
      rw [Entries.get, found]
      exact id
    refine iff_of_false (fun same => ?_) other
    have length := length_of_sameEntries same
    rw [Entries.length_put_of_absent found] at length
    omega

/-- A map agrees with itself after a change just when the changed field does. -/
theorem same_put_self_iff {fs : Entries} :
    Same (.map (es.put key (.map fs))) (.map es) ↔ Same (.map fs) (es.get key) := by
  cases found : es.get? key with
  | some d =>
    rw [Entries.get_of_get? found]
    nth_rewrite 2 [← Entries.put_get? found]
    exact same_put_iff apart
  | none =>
    have other : ¬Same (.map fs) (es.get key) := by
      rw [Entries.get, found]
      exact id
    refine iff_of_false (fun same => ?_) other
    have length := length_of_sameEntries same
    rw [Entries.length_put_of_absent found] at length
    omega

end Document
end Dialogue
