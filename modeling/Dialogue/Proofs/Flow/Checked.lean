import Dialogue.Flow.Reading
import Dialogue.Proofs.Flow.Identifier

/-!
# What a successful reading tells

A reading that succeeds comes apart into the readings of its parts: what stood under each key, and
what the items of each list were.
-/

namespace Dialogue

variable {α β : Type}

namespace Checked

@[simp] theorem map_eq_ok {f : α → β} {x : Checked α} {b : β} :
    x.map f = .ok b ↔ ∃ a, x = .ok a ∧ f a = b := by
  cases x <;> simp [Checked.map]

@[simp] theorem functor_map_eq (f : α → β) (x : Checked α) : f <$> x = x.map f := rfl

@[simp] theorem seq_eq_ok {f : Checked (α → β)} {x : Checked α} {b : β} :
    f <*> x = .ok b ↔ ∃ g, f = .ok g ∧ ∃ a, x = .ok a ∧ g a = b := by
  cases f <;> cases x <;> simp [Seq.seq, Checked.seq, Checked.map]

/-- With this the steps of a reading come one after another, however its parts are nested. -/
theorem exists_exists_and_and {p : α → Prop} {q : α → β → Prop} {r : β → Prop} :
    (∃ b, (∃ a, p a ∧ q a b) ∧ r b) ↔ ∃ a, p a ∧ ∃ b, q a b ∧ r b := by
  constructor
  · rintro ⟨b, ⟨a, ha, hab⟩, hb⟩
    exact ⟨a, ha, b, hab, hb⟩
  · rintro ⟨a, ha, b, hab, hb⟩
    exact ⟨b, ⟨a, ha, hab⟩, hb⟩

@[simp] theorem andThen_eq_ok {x : Checked α} {f : α → Checked β} {b : β} :
    x.andThen f = .ok b ↔ ∃ a, x = .ok a ∧ f a = .ok b := by
  cases x <;> simp [andThen]

/-- Where a value stands does not matter to success. -/
@[simp] theorem under_eq_ok {x : Checked α} {step : String} {a : α} :
    x.under step = .ok a ↔ x = .ok a := by
  cases x <;> simp [under]

@[simp] theorem violate_ne_ok {r : Rule} {a : α} : (violate r : Checked α) ≠ .ok a := nofun

/-- All checks pass just when each does. -/
theorem all_eq_ok {xs : List (Checked α)} {as : List α} :
    Checked.all xs = .ok as ↔ List.Forall₂ (fun x a => x = .ok a) xs as := by
  induction xs generalizing as with
  | nil => cases as <;> simp [Checked.all]
  | cons x xs ih => cases as <;> simp [Checked.all, ih]

@[simp] theorem toExcept_eq_ok {x : Checked α} {a : α} : x.toExcept = .ok a ↔ x = .ok a := by
  cases x <;> simp [toExcept]

end Checked

namespace Reading

variable {es : Entries} {key : String} {read : Reading α} {d : Document}

@[simp] theorem text_eq_ok {s : String} : text d = .ok s ↔ d = .text s := by
  constructor
  · intro h
    unfold text at h
    split at h <;> simp_all
  · rintro rfl
    rfl

@[simp] theorem someText_eq_ok {s : String} : someText d = .ok s ↔ d = .text s ∧ s ≠ "" := by
  have length (s : String) : s.length < 1 ↔ s = "" := by simp
  simp only [someText, Checked.andThen_eq_ok, text_eq_ok, leastLength, length]
  constructor
  · rintro ⟨t, rfl, h⟩
    split at h <;> simp_all
  · rintro ⟨rfl, ne⟩
    exact ⟨s, rfl, by simp [ne]⟩

/-- A name is a text that is an identifier. -/
@[simp] theorem nameOf_eq_ok {what s : String} :
    nameOf what d = .ok s ↔ d = .text s ∧ Identifier.isIdentifier s := by
  simp only [nameOf, Checked.andThen_eq_ok, someText_eq_ok, identifier]
  constructor
  · rintro ⟨t, ⟨rfl, ne⟩, h⟩
    split at h <;> simp_all
  · rintro ⟨rfl, h⟩
    exact ⟨s, ⟨rfl, Identifier.ne_empty_of_isIdentifier h⟩, by simp [h]⟩

/-- A list is read item by item. -/
@[simp] theorem listOf_eq_ok {as : List α} :
    listOf read d = .ok as ↔
      ∃ xs, d = .list xs ∧ List.Forall₂ (fun x a => read x = .ok a) xs as := by
  cases d with
  | list xs =>
    have swap : (fun (p : Nat × Document) a => (read p.2).under (toString p.1) = .ok a) =
        fun p a => read p.2 = .ok a := by simp
    have items : ((List.range xs.length).zip xs).map Prod.snd = xs :=
      List.map_snd_zip (by simp)
    simp only [listOf, Checked.all_eq_ok, List.forall₂_map_left_iff, swap, Document.list.injEq,
      exists_eq_left']
    rw [← List.forall₂_map_left_iff (f := Prod.snd) (R := fun x a => read x = .ok a), items]
  | _ => simp [listOf]

/-- A record is read of a map alone. -/
@[simp] theorem record_eq_ok {name : String} {fields : Entries → Checked α} {a : α} :
    record name fields d = .ok a ↔ ∃ es, d = .map es ∧ fields es = .ok a := by
  cases d <;> simp [record, entriesOf]

/-- A required field must be there. -/
@[simp] theorem required_eq_ok {a : α} :
    required es key read = .ok a ↔ ∃ d, es.get? key = some d ∧ read d = .ok a := by
  cases h : es.get? key <;> simp [required, h]

/-- A field with a default may be absent; null stands for no default. -/
@[simp] theorem defaulting_eq_ok {default a : α} :
    defaulting es key default read = .ok a ↔
      es.get? key = none ∧ default = a ∨ ∃ d, es.get? key = some d ∧ read d = .ok a := by
  cases h : es.get? key <;> simp [defaulting, h]

/-- An optional field may be absent or null. -/
@[simp] theorem optional_eq_ok {o : Option α} :
    optional es key read = .ok o ↔
      es.get key = .null ∧ o = none ∨
        ∃ d a, es.get? key = some d ∧ d ≠ .null ∧ read d = .ok a ∧ o = some a := by
  unfold optional
  split
  case h_1 h => simp [Entries.get, h, eq_comm]
  case h_2 h => simp [Entries.get, h, eq_comm]
  case h_3 d h found =>
    have ne : d ≠ .null := fun same => h (same ▸ rfl)
    simp [Entries.get, found, ne, eq_comm (a := o)]

end Reading
end Dialogue
