import Dialogue.Flow.Writing

/-!
# Entries

What looking up and writing an entry do to one another, and what stands under the keys of a record
that is made from its fields.
-/

namespace Dialogue

namespace Entries

variable (es fs : Entries) (key other : String) (d : Document)

@[simp] theorem get?_nil : get? [] key = none := rfl

@[simp] theorem get?_cons (k : Scalar) :
    get? ((k, d) :: es) key = if k = .text key then some d else get? es key := rfl

theorem get?_eq_none_iff : es.get? key = none ↔ ∀ e ∈ es, e.1 ≠ .text key := by
  induction es with
  | nil => simp
  | cons e es ih =>
    obtain ⟨k, x⟩ := e
    by_cases h : k = .text key <;> simp [h, ih]

/-- Writing a field changes that field and no other. -/
theorem get?_put : (es.put key d).get? other = if key = other then some d else es.get? other := by
  induction es with
  | nil => simp [put]
  | cons e es ih =>
    obtain ⟨k, x⟩ := e
    by_cases h : k = .text key <;> by_cases o : key = other <;> simp_all [put]

theorem get_put : (es.put key d).get other = if key = other then d else es.get other := by
  simp only [get, get?_put]
  split <;> rfl

@[simp] theorem get_put_self : (es.put key d).get key = d := by simp [get_put]

variable {es} {key} {d}

theorem get_of_get? (found : es.get? key = some d) : es.get key = d := by simp [get, found]

/-- A value other than null is one that is present. -/
theorem get?_of_get (found : es.get key = d) (ne : d ≠ .null) : es.get? key = some d := by
  cases h : es.get? key with
  | none => exact absurd (by simpa [get, h] using found.symm) ne
  | some x => simpa [get, h] using found

theorem mem_of_get? (found : es.get? key = some d) : (Scalar.text key, d) ∈ es := by
  induction es with
  | nil => cases found
  | cons e es ih =>
    obtain ⟨k, x⟩ := e
    rw [get?_cons] at found
    split at found
    case isTrue same =>
      obtain rfl := Option.some.inj found
      exact same ▸ .head _
    case isFalse => exact .tail _ (ih found)

theorem get?_append (absent : es.get? key = none) :
    Entries.get? (es ++ fs) key = Entries.get? fs key := by
  induction es with
  | nil => rfl
  | cons e es ih =>
    obtain ⟨k, x⟩ := e
    by_cases h : k = .text key <;> simp_all

/-- A field that the front lacks is written in the rest. -/
theorem put_append (absent : es.get? key = none) :
    Entries.put (es ++ fs) key d = es ++ Entries.put fs key d := by
  induction es with
  | nil => rfl
  | cons e es ih =>
    obtain ⟨k, x⟩ := e
    have ne : k ≠ .text key := (get?_eq_none_iff _ _).1 absent _ (.head _)
    simp_all [put]

/-! ## Changing an entry in its place -/

/-- The value under a key changed, if there is one. -/
def modify (key : String) (f : Document → Document) : Entries → Entries
  | [] => []
  | (k, d) :: es => if k = .text key then (k, f d) :: es else (k, d) :: modify key f es

variable {f : Document → Document}

/-- Modifying a field changes it where it is, and no other. -/
theorem get?_modify : (es.modify key f).get? other =
    if key = other then (es.get? key).map f else es.get? other := by
  induction es with
  | nil => simp [modify]
  | cons e es ih =>
    obtain ⟨k, x⟩ := e
    by_cases h : k = .text key <;> by_cases o : key = other <;> simp_all [modify]

theorem get_modify (other : String) (ne : key ≠ other) :
    (es.modify key f).get other = es.get other := by
  simp [get, get?_modify, ne]

theorem get_modify_self (null : f .null = .null) : (es.modify key f).get key = f (es.get key) := by
  simp only [get, get?_modify, if_true]
  cases es.get? key <;> simp [null]

/-- There is nothing to modify where the field is absent. -/
theorem modify_of_absent (absent : es.get? key = none) : es.modify key f = es := by
  induction es with
  | nil => rfl
  | cons e es ih =>
    obtain ⟨k, x⟩ := e
    by_cases h : k = .text key <;> simp_all [modify]

theorem modify_of_get? (found : es.get? key = some d) : es.modify key f = es.put key (f d) := by
  induction es with
  | nil => cases found
  | cons e es ih =>
    obtain ⟨k, x⟩ := e
    by_cases h : k = .text key <;> simp_all [modify, put]

/-- A function that fixes the field changes nothing. -/
theorem modify_of_fixed (fixed : ∀ d, es.get? key = some d → f d = d) : es.modify key f = es := by
  induction es with
  | nil => rfl
  | cons e es ih =>
    obtain ⟨k, x⟩ := e
    by_cases h : k = .text key
    · simp_all [modify]
    · simp only [modify, h, if_false]
      rw [ih fun d found => fixed d (by simpa [h] using found)]

theorem modify_append (absent : es.get? key = none) :
    Entries.modify key f (es ++ fs) = es ++ Entries.modify key f fs := by
  induction es with
  | nil => rfl
  | cons e es ih =>
    obtain ⟨k, x⟩ := e
    have ne : k ≠ .text key := (get?_eq_none_iff _ _).1 absent _ (.head _)
    simp_all [modify]

/-! ## Records -/

/-- The entries of a record: the fields that are set. -/
def ofFields (fields : List (String × Option Document)) : Entries :=
  (fields.filterMap fun f => f.2.map fun d => (f.1, d)).map fun f => (.text f.1, f.2)

@[simp] theorem ofFields_nil : ofFields [] = [] := rfl

theorem ofFields_cons (f : String × Option Document) (fields : List (String × Option Document)) :
    ofFields (f :: fields) = (f.2.map fun d => (Scalar.text f.1, d)).toList ++ ofFields fields := by
  obtain ⟨k, o⟩ := f
  cases o <;> rfl

theorem ofFields_append (fields more : List (String × Option Document)) :
    ofFields (fields ++ more) = ofFields fields ++ ofFields more := by
  simp [ofFields]

/-- Of fields given for one key the first that is present counts. -/
@[simp] theorem get?_ofFields_cons (k : String) (o : Option Document)
    (fields : List (String × Option Document)) :
    (ofFields ((k, o) :: fields)).get? key =
      if k = key then o.or ((ofFields fields).get? key) else (ofFields fields).get? key := by
  cases o <;> by_cases h : k = key <;> simp [ofFields_cons, h]

theorem get?_ofFields_of_fresh {fields : List (String × Option Document)}
    (fresh : ∀ f ∈ fields, f.1 ≠ key) : (ofFields fields).get? key = none := by
  induction fields with
  | nil => rfl
  | cons f fields ih =>
    obtain ⟨k, o⟩ := f
    have ne : k ≠ key := fresh (k, o) (.head _)
    simp [ne, ih fun f h => fresh f (.tail _ h)]

/-- Writing a field of a record that is set, or that comes last, sets it in its place. -/
theorem put_ofFields (before after : List (String × Option Document)) {o : Option Document}
    (fresh : ∀ f ∈ before, f.1 ≠ key) (inPlace : o.isSome ∨ after = []) :
    (ofFields (before ++ (key, o) :: after)).put key d =
      ofFields (before ++ (key, some d) :: after) := by
  rw [ofFields_append, ofFields_append, put_append _ (get?_ofFields_of_fresh fresh)]
  congr 1
  cases o with
  | some x => simp [ofFields_cons, put]
  | none =>
    obtain rfl : after = [] := by simpa using inPlace
    rfl

/-- Changing the first field of a record that has a key. -/
theorem modify_ofFields (before after : List (String × Option Document)) {o : Option Document}
    (fresh : ∀ f ∈ before, f.1 ≠ key) (only : ∀ f ∈ after, f.1 ≠ key) :
    (ofFields (before ++ (key, o) :: after)).modify key f =
      ofFields (before ++ (key, o.map f) :: after) := by
  rw [ofFields_append, ofFields_append, modify_append _ (get?_ofFields_of_fresh fresh)]
  congr 1
  cases o with
  | some x => simp [ofFields_cons, modify]
  | none =>
    have absent : (ofFields after).get? key = none := get?_ofFields_of_fresh only
    exact modify_of_absent absent

end Entries
end Dialogue
