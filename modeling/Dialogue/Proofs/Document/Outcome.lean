import Dialogue.Failure
import Mathlib.Data.List.Forall2

/-!
# Computations that may fail

How results with errors are sequenced: binds come apart into their steps, and running through a list
relates its items one by one to those of the result.
-/

namespace Dialogue

variable {ε α β γ : Type}

@[simp] theorem pure_eq_ok (a : α) : (pure a : Except ε α) = .ok a := rfl

@[simp] theorem ok_bind (a : α) (f : α → Except ε β) : (Except.ok a >>= f) = f a := rfl

@[simp] theorem error_bind (e : ε) (f : α → Except ε β) : (Except.error e >>= f) = .error e := rfl

@[simp] theorem map_ok (f : α → β) (a : α) : (f <$> (.ok a : Except ε α)) = .ok (f a) := rfl

/-- Two steps succeed just when each does. -/
theorem bind_eq_ok {x : Except ε α} {f : α → Except ε β} {b : β} :
    (x >>= f) = .ok b ↔ ∃ a, x = .ok a ∧ f a = .ok b := by
  cases x <;> simp

theorem exists_bind_eq_ok {x : Except ε α} {f : α → Except ε β} :
    (∃ b, (x >>= f) = .ok b) ↔ ∃ a, x = .ok a ∧ ∃ b, f a = .ok b := by
  cases x <;> simp

/-- Two steps fail where the first fails, or the second after it. -/
theorem bind_eq_error {x : Except ε α} {f : α → Except ε β} {e : ε} :
    (x >>= f) = .error e ↔ x = .error e ∨ ∃ a, x = .ok a ∧ f a = .error e := by
  cases x <;> simp

theorem exists_of_isOk {x : Except ε α} (h : x.isOk) : ∃ a, x = .ok a := by
  cases x with
  | ok a => exact ⟨a, rfl⟩
  | error e => cases h

theorem exists_of_any {x : Except ε α} {p : α → Bool} (found : x.toOption.any p) :
    ∃ a, x = .ok a ∧ p a := by
  cases x with
  | ok a => exact ⟨a, rfl, found⟩
  | error e => cases found

/-- A list is gone through with success just when every item is. -/
theorem mapM_eq_ok {f : α → Except ε β} {xs : List α} {ys : List β} :
    xs.mapM f = .ok ys ↔ List.Forall₂ (fun x y => f x = .ok y) xs ys := by
  induction xs generalizing ys with
  | nil => cases ys <;> simp
  | cons x xs ih =>
    rw [List.mapM_cons, bind_eq_ok]
    constructor
    · rintro ⟨y, hy, rest⟩
      obtain ⟨zs, hzs, same⟩ := bind_eq_ok.1 rest
      obtain rfl : y :: zs = ys := by simpa using same
      exact .cons hy (ih.1 hzs)
    · rintro (_ | ⟨hy, rest⟩)
      exact ⟨_, hy, by simp [ih.2 rest]⟩

/-- Items related to others on which the step is known give the list of what it gives for those. -/
theorem mapM_of_forall₂ {R : α → β → Prop} {f : α → Except ε γ} {g : β → γ} {xs : List α}
    {ys : List β} (related : List.Forall₂ R xs ys) (step : ∀ x y, R x y → f x = .ok (g y)) :
    xs.mapM f = .ok (ys.map g) := by
  rw [mapM_eq_ok, List.forall₂_map_right_iff]
  exact related.imp step

/-- If every item gives a result of some kind, then all of them do, in order. -/
theorem exists_mapM_of_forall₂ {R : α → β → Prop} {Q : γ → β → Prop} {f : α → Except ε γ}
    {xs : List α} {ys : List β} (related : List.Forall₂ R xs ys)
    (step : ∀ x y, R x y → ∃ z, f x = .ok z ∧ Q z y) :
    ∃ zs, xs.mapM f = .ok zs ∧ List.Forall₂ Q zs ys := by
  induction related with
  | nil => exact ⟨[], rfl, .nil⟩
  | cons here _ ih =>
    obtain ⟨z, hz, q⟩ := step _ _ here
    obtain ⟨zs, hzs, rest⟩ := ih
    exact ⟨z :: zs, by simp [List.mapM_cons, hz, hzs], .cons q rest⟩

/-- What is known of items and of what a step makes of them is known of all that is made. -/
theorem forall₂_of_mapM {R : α → β → Prop} {Q : γ → β → Prop} {f : α → Except ε γ} {xs : List α}
    {ys : List β} {zs : List γ} (related : List.Forall₂ R xs ys) (run : xs.mapM f = .ok zs)
    (step : ∀ x y z, R x y → f x = .ok z → Q z y) : List.Forall₂ Q zs ys := by
  rw [mapM_eq_ok] at run
  induction related generalizing zs with
  | nil =>
    cases run
    exact .nil
  | cons here _ ih =>
    cases run with
    | cons made rest => exact .cons (step _ _ _ here made) (ih rest)

/-- Where no item fails the results are a plain map. -/
theorem mapM_eq_map {f : α → Except ε β} {g : α → β} {xs : List α}
    (step : ∀ x ∈ xs, f x = .ok (g x)) : xs.mapM f = .ok (xs.map g) := by
  rw [mapM_eq_ok, List.forall₂_map_right_iff, List.forall₂_same]
  exact step

/-- The same for items that stand for others. -/
theorem mapM_map_eq_map {f : α → β} {g : β → Except ε γ} {h : α → γ} {xs : List α}
    (step : ∀ x ∈ xs, g (f x) = .ok (h x)) : (xs.map f).mapM g = .ok (xs.map h) := by
  rw [mapM_eq_ok, List.forall₂_map_left_iff, List.forall₂_map_right_iff, List.forall₂_same]
  exact step

theorem exists_mapM {f : α → Except ε β} {xs : List α} (step : ∀ x ∈ xs, ∃ y, f x = .ok y) :
    ∃ ys, xs.mapM f = .ok ys := by
  induction xs with
  | nil => exact ⟨[], rfl⟩
  | cons x xs ih =>
    obtain ⟨y, here⟩ := step x (.head _)
    obtain ⟨ys, rest⟩ := ih fun x member => step x (.tail _ member)
    exact ⟨y :: ys, by simp [List.mapM_cons, here, rest]⟩

/-- What fails on a list fails on one of its items. -/
theorem exists_of_mapM_error {f : α → Except ε β} {xs : List α} {e : ε}
    (fails : xs.mapM f = .error e) : ∃ x ∈ xs, f x = .error e := by
  induction xs with
  | nil => cases fails
  | cons x xs ih =>
    rw [List.mapM_cons, bind_eq_error] at fails
    rcases fails with here | ⟨y, -, rest⟩
    · exact ⟨x, .head _, here⟩
    · rcases bind_eq_error.1 rest with there | ⟨ys, -, last⟩
      · obtain ⟨x, member, h⟩ := ih there
        exact ⟨x, .tail _ member, h⟩
      · cases last

/-- A check of all items passes just when each item does. -/
theorem forM_eq_ok {f : α → Except ε Unit} {xs : List α} {u : Unit} :
    xs.forM f = .ok u ↔ ∀ x ∈ xs, f x = .ok () := by
  induction xs with
  | nil => simp
  | cons x xs ih =>
    rw [List.forM, bind_eq_ok, List.forall_mem_cons, ← ih]
    exact ⟨fun ⟨(), here, rest⟩ => ⟨here, rest⟩, fun ⟨here, rest⟩ => ⟨(), here, rest⟩⟩

theorem exists_of_forM_error {f : α → Except ε Unit} {xs : List α} {e : ε}
    (fails : xs.forM f = .error e) : ∃ x ∈ xs, f x = .error e := by
  induction xs with
  | nil => cases fails
  | cons x xs ih =>
    rcases bind_eq_error.1 fails with here | ⟨-, -, rest⟩
    · exact ⟨x, .head _, here⟩
    · obtain ⟨y, member, h⟩ := ih rest
      exact ⟨y, .tail _ member, h⟩

/-- A step that only renames what it is given leaves its failures as they are. -/
theorem mapM_map_functor {δ : Type} {f : α → β} {g : β → Except ε γ} {h : α → Except ε δ}
    {k : δ → γ} (step : ∀ x, g (f x) = k <$> h x) (xs : List α) :
    (xs.map f).mapM g = List.map k <$> xs.mapM h := by
  induction xs with
  | nil => rfl
  | cons x xs ih =>
    rw [List.map_cons, List.mapM_cons, List.mapM_cons, ih, step]
    cases h x with
    | error e => rfl
    | ok y => cases xs.mapM h <;> rfl

theorem filterM_eq_filter {f : α → Except ε Bool} {p : α → Bool} {xs : List α}
    (step : ∀ x ∈ xs, f x = .ok (p x)) : xs.filterM f = .ok (xs.filter p) := by
  have loop (kept : List α) :
      xs.filterAuxM f kept = .ok ((xs.filter p).reverse ++ kept) := by
    induction xs generalizing kept with
    | nil => rfl
    | cons x xs ih =>
      have rest := ih fun x member => step x (.tail _ member)
      cases h : p x <;> simp [List.filterAuxM, step x (.head _), h, rest]
  simp [List.filterM, loop]

/-- Related items may be taken with the fact that they are among the others. -/
theorem forall₂_mem_right {R : α → β → Prop} {xs : List α} {ys : List β}
    (related : List.Forall₂ R xs ys) : List.Forall₂ (fun x y => y ∈ ys ∧ R x y) xs ys := by
  have within : List.Forall₂ (fun y x => y ∈ ys ∧ R x y) ys xs :=
    (List.forall₂_and_left ys xs).2 ⟨fun _ => id, related.flip⟩
  exact within.flip

/-- Numbering one side of a relation keeps it. -/
theorem forall₂_zipIdx {R : α → β → Prop} {xs : List α} {ys : List β}
    (related : List.Forall₂ R xs ys) (start : Nat) :
    List.Forall₂ (fun p y => R p.1 y) (xs.zipIdx start) ys := by
  rw [← List.forall₂_map_left_iff (f := Prod.fst) (R := R), List.zipIdx_map_fst]
  exact related

/-- Items keep their partners when both lists are numbered. -/
theorem forall₂_zipIdx_zipIdx {R : α → β → Prop} {xs : List α} {ys : List β}
    (related : List.Forall₂ R xs ys) (start : Nat) :
    List.Forall₂ (fun p q => R p.1 q.1 ∧ p.2 = q.2) (xs.zipIdx start) (ys.zipIdx start) := by
  induction related generalizing start with
  | nil => exact .nil
  | cons here _ ih => exact .cons ⟨here, rfl⟩ (ih (start + 1))

theorem map_of_forall₂ {R : α → β → Prop} {f : α → γ} {g : β → γ} {xs : List α} {ys : List β}
    (related : List.Forall₂ R xs ys) (step : ∀ x y, R x y → f x = g y) : xs.map f = ys.map g := by
  induction related with
  | nil => rfl
  | cons here _ ih => simp [step _ _ here, ih]

/-- The same for lists that are joined, where each stands for what an item gives. -/
theorem map_flatten_of_forall₂ {δ : Type} {f : α → γ} {g : δ → γ} {h : β → List δ}
    {xss : List (List α)} {ys : List β}
    (related : List.Forall₂ (fun xs y => xs.map f = (h y).map g) xss ys) :
    xss.flatten.map f = (ys.flatMap h).map g := by
  rw [List.map_flatten, List.map_flatMap, List.flatMap_def]
  exact congrArg List.flatten (map_of_forall₂ related fun _ _ same => same)

theorem any_of_forall₂ {R : α → β → Prop} {p : α → Bool} {q : β → Bool} {xs : List α}
    {ys : List β} (related : List.Forall₂ R xs ys) (step : ∀ x y, R x y → p x = q y) :
    xs.any p = ys.any q := by
  induction related with
  | nil => rfl
  | cons here _ ih => simp [step _ _ here, ih]

/-- An item on the left is related to one on the right. -/
theorem exists_of_mem_left {R : α → β → Prop} {xs : List α} {ys : List β}
    (related : List.Forall₂ R xs ys) {x : α} (member : x ∈ xs) : ∃ y ∈ ys, R x y := by
  induction related with
  | nil => cases member
  | cons here _ ih =>
    cases member with
    | head => exact ⟨_, .head _, here⟩
    | tail _ member =>
      obtain ⟨y, found, there⟩ := ih member
      exact ⟨y, .tail _ found, there⟩

/-- An item on the right is related to one on the left. -/
theorem exists_of_mem_right {R : α → β → Prop} {xs : List α} {ys : List β}
    (related : List.Forall₂ R xs ys) {y : β} (member : y ∈ ys) : ∃ x ∈ xs, R x y :=
  exists_of_mem_left related.flip member

theorem exists_mapM_iff {f : α → Except ε β} {xs : List α} :
    (∃ ys, xs.mapM f = .ok ys) ↔ ∀ x ∈ xs, ∃ y, f x = .ok y := by
  refine ⟨fun ⟨ys, run⟩ x member => ?_, exists_mapM⟩
  obtain ⟨y, -, here⟩ := exists_of_mem_left (mapM_eq_ok.1 run) member
  exact ⟨y, here⟩

/-- A run whose steps fail in one way only, if they fail, fails so. -/
theorem mapM_eq_error {f : α → Except ε β} {xs : List α} {e : ε} {x : α} (member : x ∈ xs)
    (fails : f x = .error e) (only : ∀ x ∈ xs, ∀ e', f x = .error e' → e' = e) :
    xs.mapM f = .error e := by
  cases run : xs.mapM f with
  | ok ys =>
    obtain ⟨y, -, made⟩ := exists_of_mem_left (mapM_eq_ok.1 run) member
    cases fails.symm.trans made
  | error e' =>
    obtain ⟨y, there, here⟩ := exists_of_mapM_error run
    rw [only y there e' here]

/-- Where a step changes one item only, so does the run. -/
theorem mapM_eq_set {f : α → Except ε α} {xs : List α} {i : Nat} {x : α}
    (at_i : xs[i]? = some x) (others : ∀ (j : Nat) (y : α), xs[j]? = some y → j ≠ i → f y = .ok y) :
    xs.mapM f = xs.set i <$> f x := by
  induction xs generalizing i with
  | nil => cases at_i
  | cons y ys ih =>
    cases i with
    | zero =>
      obtain rfl : y = x := by simpa using at_i
      have rest : ys.mapM f = .ok (ys.map id) := mapM_eq_map fun z member => by
        obtain ⟨j, at_j⟩ := List.mem_iff_getElem?.1 member
        exact others (j + 1) z at_j (by omega)
      rw [List.mapM_cons, rest]
      cases f y <;> simp
    | succ i =>
      have first : f y = .ok y := others 0 y rfl (by omega)
      have rest := ih at_i fun j z at_j ne => others (j + 1) z at_j (by omega)
      rw [List.mapM_cons, first, rest]
      cases f x <;> rfl

/-! ## Loose readings as steps -/

@[simp] theorem lift_ok (a : α) : Loose.lift (.ok a) = .ok a := rfl

@[simp] theorem lift_error (m : Malformed) :
    (Loose.lift (.error m) : Outcome α) = .error (.malformed m) := rfl

@[simp] theorem lift_eq_ok {x : Loose α} {a : α} : Loose.lift x = .ok a ↔ x = .ok a := by
  cases x <;> simp

@[simp] theorem liftM_eq_lift (x : Loose α) : (liftM x : Outcome α) = x.lift := rfl

end Dialogue
