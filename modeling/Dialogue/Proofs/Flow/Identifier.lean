import Dialogue.Flow.Identifier
import Dialogue.Proofs.Document.Outcome

/-!
# Identifiers and the ids of decision nodes

Identifiers and what suffixes make of them hold no hyphen, so a decision node's id is none of them
and tells its owner and its function apart. A free id is the candidate or the first suffixed one
that is not taken.
-/

namespace Dialogue.Identifier

/-- No hyphen stands in the text. -/
def HyphenFree (s : String) : Prop := '-' ∉ s.toList

/-- Only a line feed can be dropped. -/
theorem mem_dropFinalFeed {c : Char} {cs : List Char} (other : c ≠ '\n') (member : c ∈ cs) :
    c ∈ dropFinalFeed cs := by
  unfold dropFinalFeed
  split
  case isFalse => exact member
  case isTrue feed =>
    rw [← List.dropLast_append_getLast? '\n' feed] at member
    simpa [other] using member

theorem isStart_isContinue {c : Char} (start : isStart c) : isContinue c := by
  simp only [isStart, isContinue, Char.isAlphanum, Bool.or_eq_true] at start ⊢
  tauto

theorem isContinue_of_mem {c : Char} {cs : List Char} (word : isWord cs) (member : c ∈ cs) :
    isContinue c := by
  cases cs with
  | nil => cases member
  | cons d ds =>
    simp only [isWord, Bool.and_eq_true, List.all_eq_true] at word
    cases member with
    | head => exact isStart_isContinue word.1
    | tail _ member => exact word.2 c member

/-- An identifier has no hyphens. -/
theorem hyphenFree_of_isIdentifier {s : String} (h : isIdentifier s) : HyphenFree s := by
  intro member
  simp only [isIdentifier, Bool.and_eq_true] at h
  exact absurd (isContinue_of_mem h.1 (mem_dropFinalFeed (by decide) member)) (by decide)

theorem ne_empty_of_isIdentifier {s : String} (h : isIdentifier s) : s ≠ "" := by
  rintro rfl
  exact absurd h (by decide)

/-! ## Free ids -/

/-- A number behind a name brings no hyphen. -/
theorem hyphenFree_suffixed {s : String} (free : HyphenFree s) (n : Nat) :
    HyphenFree (suffixed s n) := by
  have digits : '-' ∉ Number.decimalDigits n := fun member =>
    absurd (Nat.isDigit_of_mem_toDigits (by decide) (by decide) member) (by decide)
  simp only [HyphenFree, suffixed, String.toList_append, List.mem_append, String.toList_ofList]
    at free ⊢
  rintro ((h | h) | h)
  · exact free h
  · exact absurd h (by decide)
  · exact digits h

/-- The search gives the first free suffix of those it tries, if there is one. -/
theorem firstFree?_eq_some {candidate id : String} {taken : List String} {n attempts : Nat}
    (found : firstFree? candidate taken n attempts = some id) :
    ∃ k, n ≤ k ∧ k < n + attempts ∧ id = suffixed candidate k ∧ id ∉ taken ∧
      ∀ j, n ≤ j → j < k → suffixed candidate j ∈ taken := by
  induction attempts generalizing n with
  | zero => cases found
  | succ attempts ih =>
    simp only [firstFree?, List.contains_iff_mem] at found
    split at found
    case isTrue isTaken =>
      obtain ⟨k, least, bound, rfl, free, earlier⟩ := ih found
      refine ⟨k, by omega, by omega, rfl, free, fun j low high => ?_⟩
      obtain rfl | low : n = j ∨ n + 1 ≤ j := by omega
      · exact isTaken
      · exact earlier j low high
    case isFalse isFree =>
      obtain rfl := Option.some.inj found
      exact ⟨n, Nat.le_refl n, by omega, rfl, isFree, fun j low high => by omega⟩

/-- The search fails when all names tried are taken. -/
theorem firstFree?_eq_none {candidate : String} {taken : List String} {n attempts : Nat} :
    firstFree? candidate taken n attempts = none ↔
      ∀ k, n ≤ k → k < n + attempts → suffixed candidate k ∈ taken := by
  induction attempts generalizing n with
  | zero => simp only [firstFree?, true_iff]; omega
  | succ attempts ih =>
    simp only [firstFree?, List.contains_iff_mem]
    split
    case isTrue isTaken =>
      rw [ih]
      refine ⟨fun h k low high => ?_, fun h k low high => h k (by omega) (by omega)⟩
      obtain rfl | low : n = k ∨ n + 1 ≤ k := by omega
      · exact isTaken
      · exact h k low (by omega)
    case isFalse isFree =>
      refine ⟨fun h => by simp at h, fun h => absurd (h n (Nat.le_refl n) (by omega)) isFree⟩

/-- The identifier found is free, and the candidate or a numbered form of it. -/
theorem disambiguate_eq_ok {candidate id : String} {taken : List String} {attempts : Int}
    (h : disambiguate candidate taken attempts = .ok id) :
    id ∉ taken ∧ (id = candidate ∨ ∃ k, id = suffixed candidate k) := by
  simp only [disambiguate] at h
  split at h
  case isTrue free =>
    obtain rfl := Except.ok.inj h
    exact ⟨by simpa using free, .inl rfl⟩
  case isFalse =>
    split at h
    case h_1 found =>
      obtain rfl := Except.ok.inj h
      obtain ⟨k, -, -, rfl, free, -⟩ := firstFree?_eq_some found
      exact ⟨free, .inr ⟨k, rfl⟩⟩
    case h_2 => cases h

/-- No id is found exactly when the candidate and all its suffixes in reach are taken. -/
theorem disambiguate_fails_iff {candidate : String} {taken : List String} {attempts : Int} :
    (∃ e, disambiguate candidate taken attempts = .error e) ↔
      candidate ∈ taken ∧ ∀ k : Nat, 1 ≤ k → k ≤ attempts → suffixed candidate k ∈ taken := by
  have reach : (∀ k : Nat, 1 ≤ k → k < 1 + attempts.toNat → suffixed candidate k ∈ taken) ↔
      ∀ k : Nat, 1 ≤ k → k ≤ attempts → suffixed candidate k ∈ taken :=
    forall_congr' fun k => ⟨fun h low high => h low (by omega), fun h low high => h low (by omega)⟩
  rw [← reach, ← firstFree?_eq_none, disambiguate]
  by_cases member : candidate ∈ taken
  · simp only [List.contains_iff_mem.2 member, Bool.not_true, Bool.false_eq_true, if_false, member,
      true_and]
    cases firstFree? candidate taken 1 attempts.toNat <;> simp
  · simp [member]

theorem hyphenFree_disambiguate {candidate id : String} {taken : List String} {attempts : Int}
    (h : disambiguate candidate taken attempts = .ok id) (free : HyphenFree candidate) :
    HyphenFree id := by
  obtain ⟨-, rfl | ⟨k, rfl⟩⟩ := disambiguate_eq_ok h
  · exact free
  · exact hyphenFree_suffixed free k

/-- The search looks at numbered forms only. -/
theorem firstFree?_congr {candidate : String} {taken taken' : List String} (n attempts : Nat)
    (same : ∀ k, suffixed candidate k ∈ taken ↔ suffixed candidate k ∈ taken') :
    firstFree? candidate taken n attempts = firstFree? candidate taken' n attempts := by
  induction attempts generalizing n with
  | zero => rfl
  | succ attempts ih => simp only [firstFree?, List.contains_iff_mem, same, ih]

/-- Only ids without hyphens matter to a candidate without them. -/
theorem disambiguate_congr {candidate : String} {taken taken' : List String} (attempts : Int)
    (free : HyphenFree candidate) (same : ∀ id, HyphenFree id → (id ∈ taken ↔ id ∈ taken')) :
    disambiguate candidate taken attempts = disambiguate candidate taken' attempts := by
  have start : taken.contains candidate = taken'.contains candidate := by
    rw [Bool.eq_iff_iff, List.contains_iff_mem, List.contains_iff_mem, same candidate free]
  have search : firstFree? candidate taken 1 attempts.toNat =
      firstFree? candidate taken' 1 attempts.toNat :=
    firstFree?_congr 1 attempts.toNat fun k => same _ (hyphenFree_suffixed free k)
  rw [disambiguate, disambiguate, start, search]

/-! ## Ids of decision nodes -/

theorem toList_decisionId (owner function : String) :
    (decisionId owner function).toList =
      decisionMark.toList ++ (owner.toList ++ '-' :: function.toList) := by
  simp [decisionId]

/-- The id of a decision has hyphens, unlike that of any node. -/
theorem not_hyphenFree_decisionId (owner function : String) :
    ¬ HyphenFree (decisionId owner function) := by
  simp [HyphenFree, toList_decisionId]

/-- Both end before the first hyphen, so what comes before it is the same. -/
theorem append_hyphen_inj {xs ys us vs : List Char} (x : '-' ∉ xs) (y : '-' ∉ ys)
    (same : xs ++ '-' :: us = ys ++ '-' :: vs) : xs = ys ∧ us = vs := by
  induction xs generalizing ys with
  | nil =>
    cases ys with
    | nil => simpa using same
    | cons d ys => exact absurd (List.cons.inj same).1 (List.ne_of_not_mem_cons y)
  | cons c xs ih =>
    cases ys with
    | nil => exact absurd (List.cons.inj same).1.symm (List.ne_of_not_mem_cons x)
    | cons d ys =>
      obtain ⟨rfl, rest⟩ := List.cons.inj same
      obtain ⟨rfl, rfl⟩ :=
        ih (List.not_mem_of_not_mem_cons x) (List.not_mem_of_not_mem_cons y) rest
      exact ⟨rfl, rfl⟩

/-- Such an id tells an owner without hyphens, and the function. -/
theorem decisionId_inj {owner owner' function function' : String} (free : HyphenFree owner)
    (free' : HyphenFree owner') (same : decisionId owner function = decisionId owner' function') :
    owner = owner' ∧ function = function' := by
  have chars := congrArg String.toList same
  rw [toList_decisionId, toList_decisionId, List.append_cancel_left_eq] at chars
  obtain ⟨owners, functions⟩ := append_hyphen_inj free free' chars
  exact ⟨String.toList_inj.1 owners, String.toList_inj.1 functions⟩

theorem isManaged_decisionId (owner function : String) : isManaged (decisionId owner function) := by
  rw [isManaged, toList_decisionId, List.isPrefixOf_iff_prefix]
  exact List.prefix_append ..

theorem not_isManaged_of_hyphenFree {id : String} (free : HyphenFree id) :
    isManaged id = false := by
  rw [Bool.eq_false_iff]
  intro managed
  have hyphen : '-' ∈ decisionMark.toList := by decide
  exact free ((List.isPrefixOf_iff_prefix.1 managed).subset hyphen)

end Dialogue.Identifier
