import Dialogue.Proofs.Flow.Naming
import Dialogue.Script.ResultType

/-!
# Names of result types

The types of a module have names of their own, which are neither reserved nor hold an underscore:
a name that is taken is given the first number that makes it free.
-/

namespace Dialogue

/-- A text of ASCII characters only. -/
def Ascii (s : String) : Prop := ∀ c ∈ s.toList, c.toNat < 128

instance (s : String) : Decidable (Ascii s) :=
  decidable_of_iff (s.toList.all fun c => c.toNat < 128) (by simp [Ascii])

theorem Ascii.append {s t : String} (left : Ascii s) (right : Ascii t) : Ascii (s ++ t) := by
  simp only [Ascii, String.toList_append, List.mem_append]
  exact fun c member => member.elim (left c) (right c)

theorem ascii_of_isContinue {c : Char} (h : Identifier.isContinue c) : c.toNat < 128 := by
  rcases Identifier.isContinue_iff.1 h with (⟨-, high⟩ | ⟨-, high⟩ | rfl) | ⟨-, high⟩
  · exact Nat.lt_of_le_of_lt (Char.le_def.1 high) (by decide)
  · exact Nat.lt_of_le_of_lt (Char.le_def.1 high) (by decide)
  · decide
  · exact Nat.lt_of_le_of_lt (Char.le_def.1 high) (by decide)

/-- Identifiers are plain. -/
theorem ascii_of_isIdentifier {s : String} (h : Identifier.isIdentifier s) : Ascii s := by
  intro c member
  by_cases feed : c = '\n'
  · rw [feed]
    decide
  · simp only [Identifier.isIdentifier, Bool.and_eq_true] at h
    exact ascii_of_isContinue
      (Identifier.isContinue_of_mem h.1 (Identifier.mem_dropFinalFeed feed member))

namespace Script

/-! ## The characters of a name -/

/-- An ASCII character has one capital, which is ASCII. An underscore is the capital of itself only;
what may stand in a name has a capital that may stand where it may. -/
theorem upperChars_of_ascii {c : Char} (ascii : c.toNat < 128) :
    ∃ u, Text.upperChars c = [u] ∧ u.toNat < 128 ∧ (u = '_' → c = '_') ∧
      (Identifier.isContinue c →
        Identifier.isContinue u ∧ Identifier.isStart u = Identifier.isStart c) := by
  have all : ((List.range 128).all fun n => (Text.upperChars (Char.ofNat n)).length == 1 &&
      (Text.upperChars (Char.ofNat n)).all fun u =>
        u.toNat < 128 && (u != '_' || Char.ofNat n == '_') &&
          (!Identifier.isContinue (Char.ofNat n) ||
            Identifier.isContinue u && Identifier.isStart u == Identifier.isStart (Char.ofNat n))) =
      true := by decide +kernel
  have each := List.all_eq_true.1 all c.toNat (List.mem_range.2 ascii)
  rw [Char.ofNat_toNat, Bool.and_eq_true, beq_iff_eq] at each
  obtain ⟨one, each⟩ := each
  obtain ⟨u, upper⟩ := List.length_eq_one_iff.1 one
  simp only [upper, List.all_cons, List.all_nil, Bool.and_true, Bool.and_eq_true, Bool.or_eq_true,
    decide_eq_true_eq, bne_iff_ne, beq_iff_eq, Bool.not_eq_true'] at each
  obtain ⟨⟨low, under⟩, word⟩ := each
  refine ⟨u, upper, low, fun same => under.resolve_left (absurd same), fun continues => ?_⟩
  exact word.resolve_left (by simp [continues])

theorem mem_splitOn {a c : Char} {cs w : List Char} (piece : w ∈ cs.splitOn a) (member : c ∈ w) :
    c ∈ cs ∧ c ≠ a := by
  induction cs generalizing w with
  | nil =>
    obtain rfl : w = [] := by simpa using piece
    cases member
  | cons d cs ih =>
    rw [List.splitOn_cons_eq_if_modifyHead] at piece
    have rest {v : List Char} (piece : v ∈ cs.splitOn a) (member : c ∈ v) : c ∈ d :: cs ∧ c ≠ a :=
      (ih piece member).imp_left (List.mem_cons_of_mem d)
    split at piece
    case isTrue =>
      rcases List.mem_cons.1 piece with rfl | piece
      · cases member
      · exact rest piece member
    case isFalse other =>
      cases pieces : cs.splitOn a with
      | nil => simp [pieces] at piece
      | cons v vs =>
        rw [pieces, List.modifyHead_cons, List.mem_cons] at piece
        rcases piece with rfl | later
        · rcases List.mem_cons.1 member with rfl | member
          · exact ⟨.head _, by simpa using other⟩
          · exact rest (by rw [pieces]; exact .head _) member
        · exact rest (by rw [pieces]; exact .tail _ later) member

/-- What holds of the characters of a name, underscores left out, holds of its stem, if it holds of
their capitals. -/
theorem forall_mem_typeStem_of_ne {p : Char → Prop}
    (upper : ∀ c, p c → ∀ u ∈ Text.upperChars c, p u) {s : String}
    (each : ∀ c ∈ s.toList, c ≠ '_' → p c) : ∀ c ∈ (typeStem s).toList, p c := by
  intro c member
  rw [typeStem, String.toList_ofList, List.mem_flatMap] at member
  obtain ⟨w, piece, member⟩ := member
  have plain (d : Char) (there : d ∈ w) : p d :=
    (mem_splitOn piece there).elim fun own other => each d own other
  cases w with
  | nil => cases member
  | cons d w =>
    rcases List.mem_append.1 member with first | rest
    · exact upper d (plain d (.head _)) c first
    · exact plain c (.tail _ rest)

theorem forall_mem_typeStem {p : Char → Prop} (upper : ∀ c, p c → ∀ u ∈ Text.upperChars c, p u)
    {s : String} (each : ∀ c ∈ s.toList, p c) : ∀ c ∈ (typeStem s).toList, p c :=
  forall_mem_typeStem_of_ne upper fun c there _ => each c there

theorem plain_typeStem {s : String} (ascii : Ascii s) :
    ∀ c ∈ (typeStem s).toList, c.toNat < 128 ∧ c ≠ '_' := by
  refine forall_mem_typeStem_of_ne (fun c ⟨low, other⟩ u member => ?_) fun c there other =>
    ⟨ascii c there, other⟩
  obtain ⟨v, single, low, under, -⟩ := upperChars_of_ascii low
  rw [single, List.mem_singleton] at member
  exact member ▸ ⟨low, fun same => other (under same)⟩

/-! ## Free names -/

/-- Of more names than there are taken ones, one is free. -/
theorem exists_free {name : Nat → String} (injective : Function.Injective name)
    (taken : List String) : ∃ k ≤ taken.length, name k ∉ taken := by
  by_contra! all
  have nodup : ((List.range (taken.length + 1)).map name).Nodup := List.nodup_range.map injective
  have known : (List.range (taken.length + 1)).map name ⊆ taken := by
    intro a member
    obtain ⟨k, bound, rfl⟩ := List.mem_map.1 member
    rw [List.mem_range] at bound
    exact all k (by omega)
  have length := (List.subperm_of_subset nodup known).length_le
  simp at length

namespace Registry

theorem numbered_injective (stem : String) : Function.Injective (numbered stem) := by
  intro m n same
  have chars := congrArg String.toList same
  simp only [numbered, String.toList_append, List.append_left_inj, List.append_right_inj] at chars
  have value := congrArg (Nat.ofDigitChars 10 · 0) chars
  simpa [Nat.toString_eq_ofList_toDigits] using value

/-- If even the last name of the search is taken, so are all that it has tried. -/
theorem mem_of_freeName_mem {taken : List String} {stem : String} {n fuel : Nat}
    (isTaken : freeName taken stem n fuel ∈ taken) :
    ∀ k, n ≤ k → k ≤ n + fuel → numbered stem k ∈ taken := by
  induction fuel generalizing n with
  | zero =>
    intro k low high
    obtain rfl : k = n := by omega
    exact isTaken
  | succ fuel ih =>
    simp only [freeName, List.contains_iff_mem] at isTaken
    split at isTaken
    case isFalse free => exact absurd isTaken free
    case isTrue first =>
      intro k low high
      obtain rfl | low : k = n ∨ n + 1 ≤ k := by omega
      · exact first
      · exact ih isTaken k low (by omega)

/-- One name more is tried than there are taken ones. -/
theorem freeName_not_mem (taken : List String) (stem : String) (n : Nat) :
    freeName taken stem n taken.length ∉ taken := by
  intro isTaken
  have injective : Function.Injective fun k => numbered stem (n + k) :=
    (numbered_injective stem).comp (add_right_injective n)
  obtain ⟨k, bound, free⟩ := exists_free injective taken
  exact free (mem_of_freeName_mem isTaken (n + k) (by omega) (by omega))

/-- The name chosen is free. -/
theorem chooseName_not_mem (taken : List String) (function : String) :
    chooseName taken function ∉ taken := by
  simp only [chooseName, List.contains_iff_mem]
  split
  · exact freeName_not_mem taken (typeStem function) 2
  · assumption

/-- All numbers before the one that is chosen are taken. -/
theorem exists_freeName (taken : List String) (stem : String) (n fuel : Nat) :
    ∃ k, n ≤ k ∧ freeName taken stem n fuel = numbered stem k ∧
      ∀ j, n ≤ j → j < k → numbered stem j ∈ taken := by
  induction fuel generalizing n with
  | zero => exact ⟨n, Nat.le_refl n, rfl, fun j low high => by omega⟩
  | succ fuel ih =>
    simp only [freeName, List.contains_iff_mem]
    split
    case isTrue first =>
      obtain ⟨k, bound, name, before⟩ := ih (n + 1)
      refine ⟨k, by omega, name, fun j low high => ?_⟩
      obtain rfl | later : j = n ∨ n + 1 ≤ j := by omega
      · exact first
      · exact before j later high
    case isFalse => exact ⟨n, Nat.le_refl n, rfl, fun j low high => by omega⟩

theorem chooseName_eq (taken : List String) (function : String) :
    chooseName taken function = typeName function ∨
      ∃ n, chooseName taken function = numbered (typeStem function) n := by
  simp only [chooseName]
  split
  · obtain ⟨k, -, name, -⟩ := exists_freeName taken (typeStem function) 2 taken.length
    exact .inr ⟨k, name⟩
  · exact .inl rfl

/-- The types of some functions have names of their own, none of them reserved. -/
structure Apart (reserved : List String) (fs : List Signature) (types : Registry) : Prop where
  nodup : types.names.Nodup
  free : ∀ name ∈ types.names, name ∉ reserved
  called : ∀ name ∈ types.names, ∃ f ∈ fs, name = typeName f.name ∨
    ∃ n, name = numbered (typeStem f.name) n

variable {reserved : List String} {fs : List Signature} {types : Registry}

/-- A function adds one name or none. -/
theorem names_register (reserved : List String) (types : Registry) (f : Signature) :
    (types.register reserved f).names = types.names ∨
      (types.register reserved f).names =
        types.names ++ [chooseName (types.names ++ reserved) f.name] := by
  simp only [register]
  split
  · exact .inl rfl
  · exact .inr (by simp [names])

theorem Apart.register (apart : Apart reserved fs types) {f : Signature} (among : f ∈ fs) :
    Apart reserved fs (types.register reserved f) := by
  rcases names_register reserved types f with same | added
  · exact ⟨by rw [same]; exact apart.nodup, by rw [same]; exact apart.free,
      by rw [same]; exact apart.called⟩
  · have fresh := chooseName_not_mem (types.names ++ reserved) f.name
    rw [List.mem_append, not_or] at fresh
    refine ⟨?_, ?_, ?_⟩ <;> rw [added]
    · refine List.nodup_append.2 ⟨apart.nodup, List.nodup_singleton _, ?_⟩
      rintro name there _ made rfl
      exact fresh.1 (List.mem_singleton.1 made ▸ there)
    · rw [List.forall_mem_append, List.forall_mem_singleton]
      exact ⟨apart.free, fresh.2⟩
    · rw [List.forall_mem_append, List.forall_mem_singleton]
      exact ⟨apart.called, f, among, chooseName_eq _ _⟩

/-- The types of a flow have names apart from each other and from reserved ones. -/
theorem apart_ofFunctions (reserved : List String) (fs : List Signature) :
    Apart reserved fs (ofFunctions reserved fs) := by
  have loop (gs : List Signature) (among : ∀ g ∈ gs, g ∈ fs) (types : Registry)
      (apart : Apart reserved fs types) :
      Apart reserved fs (gs.foldl (Registry.register reserved) types) := by
    induction gs generalizing types with
    | nil => exact apart
    | cons g gs ih =>
      rw [List.forall_mem_cons] at among
      exact ih among.2 _ (apart.register among.1)
  exact loop fs (fun _ => id) [] ⟨List.nodup_nil, List.forall_mem_nil _, List.forall_mem_nil _⟩

/-- The names are ASCII and hold no underscore, and they all end in the same letter. -/
theorem Apart.plain (apart : Apart reserved fs types) (ascii : ∀ f ∈ fs, Ascii f.name) :
    ∀ name ∈ types.names, Ascii name ∧ '_' ∉ name.toList ∧ name.toList.getLast? = some 't' := by
  intro name member
  obtain ⟨f, among, made⟩ := apart.called name member
  have stem := plain_typeStem (ascii f among)
  have word : ∀ c ∈ resultWord.toList, c.toNat < 128 ∧ c ≠ '_' := by simp [resultWord]
  have digits (n : Nat) : ∀ c ∈ (toString n).toList, c.toNat < 128 ∧ c ≠ '_' := by
    intro c member
    rw [Nat.toString_eq_ofList_toDigits, String.toList_ofList] at member
    have digit : c.isDigit := Nat.isDigit_of_mem_toDigits (by decide) (by decide) member
    refine ⟨ascii_of_isContinue (by simp [Identifier.isContinue, Char.isAlphanum, digit]), ?_⟩
    rintro rfl
    exact absurd digit (by decide)
  have plain : ∀ c ∈ name.toList, c.toNat < 128 ∧ c ≠ '_' := by
    rcases made with rfl | ⟨n, rfl⟩
    · rw [typeName, String.toList_append, List.forall_mem_append]
      exact ⟨stem, word⟩
    · rw [numbered, String.toList_append, String.toList_append, List.forall_mem_append,
        List.forall_mem_append]
      exact ⟨⟨stem, digits n⟩, word⟩
  refine ⟨fun c there => (plain c there).1, fun there => (plain '_' there).2 rfl, ?_⟩
  rcases made with rfl | ⟨n, rfl⟩ <;> simp [typeName, numbered, resultWord]

end Registry
end Script
end Dialogue
