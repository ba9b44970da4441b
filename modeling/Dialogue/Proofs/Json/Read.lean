import Dialogue.Proofs.Json.RoundTrip

/-!
# What JSON is read as

Whatever document is read of a JSON text can be written and is read back as it is: its keys are
texts that stand apart, its whole numbers are no longer than a text may hold, and escapes of two
surrogates that pair have been joined.
-/

namespace Dialogue

/-- The document is written, and read back as it is. -/
def Document.Exact (d : Document) : Prop :=
  d.Holds (fun s => s.Writable ∧ s.Whole) fun ks =>
    (∀ k ∈ ks, k.IsText ∧ k.Whole) ∧ Scalar.Apart ks

namespace Document.Exact

variable {d : Document}

theorem writable (exact : d.Exact) : d.Every Scalar.Writable :=
  Holds.imp exact (fun _ h => h.1) fun _ keys k member => (keys.1 k member).1.writable

theorem whole (exact : d.Exact) : d.Every Scalar.Whole :=
  Holds.imp exact (fun _ h => h.2) fun _ keys k member => (keys.1 k member).2

theorem textKeyed (exact : d.Exact) : d.TextKeyed :=
  Holds.imp exact (fun _ _ => trivial) fun _ keys k member => (keys.1 k member).1

theorem distinct (exact : d.Exact) : d.Distinct :=
  Holds.imp exact (fun _ _ => trivial) fun _ keys => keys.2

end Document.Exact

namespace Json

/-! ## Texts -/

theorem hexValue?_lt {c : Char} {n : Nat} (read : hexValue? c = some n) : n < 16 := by
  unfold hexValue? at read
  split at read
  case isTrue digit =>
    have range : 48 ≤ c.toNat ∧ c.toNat ≤ 57 := Char.isDigit_iff_toNat.1 digit
    obtain rfl := Option.some.inj read
    omega
  case isFalse =>
    split at read
    case isTrue lower =>
      have range : 97 ≤ c.toNat ∧ c.toNat ≤ 102 := lower
      obtain rfl := Option.some.inj read
      omega
    case isFalse =>
      split at read
      case isTrue upper =>
        have range : 65 ≤ c.toNat ∧ c.toNat ≤ 70 := upper
        obtain rfl := Option.some.inj read
        omega
      case isFalse => cases read

theorem unit?_lt {cs rest : List Char} {u : Nat} (read : unit? cs = some (u, rest)) :
    u < 0x10000 := by
  unfold unit? at read
  split at read
  case h_1 a b c d cs =>
    simp only [Option.bind_eq_bind, Option.bind_eq_some_iff, Option.some.injEq, Prod.mk.injEq]
      at read
    obtain ⟨i, first, j, second, k, third, l, fourth, rfl, -⟩ := read
    have := hexValue?_lt first
    have := hexValue?_lt second
    have := hexValue?_lt third
    have := hexValue?_lt fourth
    simp only [Number.natOfDigits, List.foldl_cons, List.foldl_nil]
    omega
  case h_2 => cases read

/-- No escape of a low surrogate follows. -/
def NoLowEscape (cs : List Char) : Prop :=
  ∀ more v rest, cs = '\\' :: 'u' :: more → unit? more = some (v, rest) → isLowSurrogate v = false

theorem escape?_lt {c : Char} {u : Nat} (read : escape? c = some u) : u < 0x80 := by
  unfold escape? at read
  split at read <;> simp_all
  all_goals omega

/-- A pair of surrogates stands for a code point of its own. -/
theorem joinSurrogates_bounds {u v : Nat} (high : isHighSurrogate u) (low : isLowSurrogate v) :
    0x10000 ≤ joinSurrogates u v ∧ joinSurrogates u v < 0x110000 := by
  rw [isHighSurrogate_iff] at high
  rw [isLowSurrogate_iff] at low
  unfold joinSurrogates
  omega

/-- A code point that is read by an escape; a high surrogate is not followed by a low one. -/
theorem escaped?_eq_some {cs rest : List Char} {u : Nat} (read : escaped? cs = some (u, rest)) :
    u < 0x110000 ∧ (isHighSurrogate u → NoLowEscape rest) ∧
      (isLowSurrogate u → ∃ more r, cs = 'u' :: more ∧ unit? more = some (u, r)) := by
  unfold escaped? at read
  split at read
  case h_1 more =>
    simp only [Option.bind_eq_bind, Option.bind_eq_some_iff, Prod.exists] at read
    obtain ⟨v, r, unit, read⟩ := read
    have small := unit?_lt unit
    split at read
    case isFalse low =>
      obtain ⟨rfl, rfl⟩ := Prod.mk.inj (Option.some.inj read)
      exact ⟨by omega, fun high => absurd high low, fun _ => ⟨more, r, rfl, unit⟩⟩
    case isTrue high =>
      have range := isHighSurrogate_iff.1 high
      split at read
      case h_1 next =>
        simp only [Option.bind_eq_some_iff, Prod.exists, Option.some.injEq] at read
        obtain ⟨w, r', unit', same⟩ := read
        split at same
        case isTrue low =>
          obtain ⟨rfl, rfl⟩ := Prod.mk.inj same
          obtain ⟨least, most⟩ := joinSurrogates_bounds high low
          rw [isHighSurrogate_iff, isLowSurrogate_iff]
          exact ⟨most, fun range => by omega, fun range => by omega⟩
        case isFalse other =>
          obtain ⟨rfl, rfl⟩ := Prod.mk.inj same
          refine ⟨by omega, fun _ more v rest same unit => ?_, fun _ => ⟨more, _, rfl, unit⟩⟩
          simp only [List.cons.injEq, true_and] at same
          rw [← same, unit'] at unit
          obtain ⟨rfl, -⟩ := Prod.mk.inj (Option.some.inj unit)
          simpa using other
      case h_2 other =>
        obtain ⟨rfl, rfl⟩ := Prod.mk.inj (Option.some.inj read)
        refine ⟨by omega, fun _ more v rest same _ => absurd same (other more), fun low => ?_⟩
        exact ⟨more, _, rfl, unit⟩
  case h_2 c more _ =>
    obtain ⟨v, escape, same⟩ := Option.map_eq_some_iff.1 read
    obtain ⟨rfl, rfl⟩ := Prod.mk.inj same
    have small := escape?_lt escape
    refine ⟨by omega, fun high => ?_, fun low => ?_⟩
    · have range := isHighSurrogate_iff.1 high
      omega
    · have range := isLowSurrogate_iff.1 low
      omega
  case h_3 => cases read

/-- The code points of a text: a high surrogate does not stand before a low one, and the first is no
low one unless its escape stands first. -/
theorem stringBody_eq_ok {fuel : Nat} {cs rest : List Char} {codes : List Nat}
    (read : stringBody fuel cs = .ok (codes, rest)) :
    (∀ u ∈ codes, u < 0x110000) ∧ Unsplit codes ∧
      (NoLowEscape cs → ∀ u ∈ codes.head?, isLowSurrogate u = false) := by
  induction fuel generalizing cs codes with
  | zero => cases read
  | succ fuel ih =>
    unfold stringBody at read
    split at read
    case h_1 => cases read
    case h_2 =>
      obtain ⟨rfl, -⟩ := Prod.mk.inj (Except.ok.inj read)
      exact ⟨by simp, List.IsChain.nil, by simp⟩
    case h_3 more =>
      split at read
      case h_1 => cases read
      case h_2 u next escape =>
        obtain ⟨⟨us, r⟩, others, same⟩ := bind_eq_ok.1 read
        obtain ⟨rfl, rfl⟩ := Prod.mk.inj (Except.ok.inj same)
        obtain ⟨point, high, low⟩ := escaped?_eq_some escape
        obtain ⟨points, unsplit, first⟩ := ih others
        refine ⟨List.forall_mem_cons.2 ⟨point, points⟩, ?_, fun none => ?_⟩
        · rw [Unsplit, List.isChain_cons]
          refine ⟨fun v member pair => ?_, unsplit⟩
          exact absurd pair.2 (by simp [first (high pair.1) v member])
        · simp only [List.head?_cons, Option.mem_some_iff, forall_eq']
          by_contra lower
          obtain ⟨after, r, rfl, unit⟩ := low (by simpa using lower)
          exact lower (none after u r rfl unit)
    case h_4 c more _ _ =>
      split at read
      case isTrue => cases read
      case isFalse =>
        obtain ⟨⟨us, r⟩, others, same⟩ := bind_eq_ok.1 read
        obtain ⟨rfl, rfl⟩ := Prod.mk.inj (Except.ok.inj same)
        obtain ⟨point, notHigh, notLow⟩ := toNat_lt_and_not_surrogate c
        obtain ⟨points, unsplit, -⟩ := ih others
        refine ⟨List.forall_mem_cons.2 ⟨point, points⟩, ?_, fun _ => by simpa using notLow⟩
        rw [Unsplit, List.isChain_cons]
        exact ⟨fun v _ pair => absurd pair.1 (by simp [notHigh]), unsplit⟩

/-- A key that was read is a text of code points. -/
theorem exact_key {fuel : Nat} {cs rest : List Char} {codes : List Nat}
    (read : stringBody fuel cs = .ok (codes, rest)) :
    (Scalar.ofCodes codes).IsText ∧ (Scalar.ofCodes codes).Whole := by
  obtain ⟨points, unsplit, -⟩ := stringBody_eq_ok read
  unfold Scalar.ofCodes
  split
  case isTrue => exact ⟨rfl, trivial⟩
  case isFalse invalid => exact ⟨rfl, by simpa using invalid, points, unsplit⟩

/-! ## Numbers and words -/

theorem isDigit_takeWhole (cs : List Char) : ∀ c ∈ (takeWhole cs).1, c.isDigit := by
  unfold takeWhole
  split
  · simp
  · intro c member
    exact List.mem_takeWhile_imp member

theorem exact_float (x : Float) : (Document.float x).Exact :=
  Document.holds_scalar.2 ⟨trivial, trivial⟩

/-- A number that was read can be written again. -/
theorem exact_number {negative : Bool} {cs rest : List Char} {d : Document}
    (read : number negative cs = .ok (d, rest)) : d.Exact := by
  have digits := isDigit_takeWhole cs
  unfold number at read
  generalize takeWhole cs = whole at digits read
  generalize takeFraction whole.2 = fraction at read
  generalize takeExponent fraction.2 = exponent at read
  dsimp only at read
  split at read
  case isTrue => cases read
  case isFalse some =>
    split at read
    case isFalse =>
      obtain ⟨rfl, -⟩ := Prod.mk.inj (Except.ok.inj read)
      exact exact_float _
    case isTrue =>
      split at read
      case isTrue => cases read
      case isFalse short =>
        obtain ⟨rfl, -⟩ := Prod.mk.inj (Except.ok.inj read)
        refine Document.holds_scalar.2 ⟨?_, trivial⟩
        rw [Scalar.Writable, natAbs_signed]
        exact (length_decimalDigits_le (by simpa using some) digits).trans (not_lt.1 short)

theorem exact_word {cs rest : List Char} {d : Document} (read : word? cs = some (d, rest)) :
    d.Exact := by
  obtain ⟨⟨w, e⟩, member, found⟩ := List.exists_of_findSome?_eq_some read
  dsimp only at found
  obtain ⟨_, -, same⟩ := Option.map_eq_some_iff.1 found
  obtain ⟨rfl, -⟩ := Prod.mk.inj same
  have words : ∀ p ∈ wordValues, p.2.Exact := by
    simp [wordValues, Document.Exact, Scalar.Writable, Scalar.Whole]
  exact words _ member

/-! ## Documents -/

theorem exact_empty : (Document.map []).Exact :=
  Document.holds_map.2 ⟨⟨by simp, List.Pairwise.nil⟩, by simp⟩

/-- An entry that was read may be inserted. -/
theorem exact_insert {es : Entries} {k : Scalar} {x : Document} (exact : (Document.map es).Exact)
    (key : k.IsText ∧ k.Whole) (value : x.Exact) : (Document.map (es.insert k x)).Exact := by
  refine Entries.holds_insert exact value fun ks own unlike => ?_
  obtain ⟨keys, apart⟩ := own
  refine ⟨fun j member => ?_, apart.concat unlike⟩
  rcases List.mem_append.1 member with old | new
  · exact keys j old
  · rwa [List.mem_singleton.1 new]

/-- With this fuel a value, the items of a list, and entries added to exact ones, are read exact. -/
structure ReadsExact (fuel : Nat) : Prop where
  onValue : ∀ {cs rest d}, value fuel cs = .ok (d, rest) → d.Exact
  onItems : ∀ {cs rest xs}, items fuel cs = .ok (xs, rest) → ∀ x ∈ xs, x.Exact
  onMembers : ∀ {front es : Entries} {cs rest}, (Document.map front).Exact →
    members fuel front cs = .ok (es, rest) → (Document.map es).Exact

namespace ReadsExact

variable {fuel : Nat} {cs rest : List Char}

/-- With one more step in hand a value is read exactly. -/
theorem value_succ (reads : ReadsExact fuel) {d : Document}
    (read : value (fuel + 1) cs = .ok (d, rest)) : d.Exact := by
  unfold value at read
  split at read
  case h_1 more =>
    obtain ⟨⟨codes, r⟩, body, same⟩ := bind_eq_ok.1 read
    obtain ⟨rfl, -⟩ := Prod.mk.inj (Except.ok.inj same)
    obtain ⟨text, whole⟩ := exact_key body
    exact Document.holds_scalar.2 ⟨text.writable, whole⟩
  case h_2 more =>
    split at read
    case h_1 =>
      obtain ⟨rfl, -⟩ := Prod.mk.inj (Except.ok.inj read)
      exact Document.holds_list.2 (by simp)
    case h_2 =>
      obtain ⟨⟨xs, r⟩, some, same⟩ := bind_eq_ok.1 read
      obtain ⟨rfl, -⟩ := Prod.mk.inj (Except.ok.inj same)
      exact Document.holds_list.2 (reads.onItems some)
  case h_3 more =>
    split at read
    case h_1 =>
      obtain ⟨rfl, -⟩ := Prod.mk.inj (Except.ok.inj read)
      exact exact_empty
    case h_2 =>
      obtain ⟨⟨es, r⟩, some, same⟩ := bind_eq_ok.1 read
      obtain ⟨rfl, -⟩ := Prod.mk.inj (Except.ok.inj same)
      exact reads.onMembers exact_empty some
  case h_4 =>
    split at read
    case h_1 found word =>
      obtain rfl := Except.ok.inj read
      exact exact_word word
    case h_2 => split at read <;> exact exact_number read

/-- So are items. -/
theorem items_succ (reads : ReadsExact fuel) {xs : List Document}
    (read : items (fuel + 1) cs = .ok (xs, rest)) : ∀ x ∈ xs, x.Exact := by
  obtain ⟨⟨x, r⟩, first, others⟩ := bind_eq_ok.1 read
  dsimp only at others
  split at others
  case h_1 =>
    obtain ⟨rfl, -⟩ := Prod.mk.inj (Except.ok.inj others)
    simpa using reads.onValue first
  case h_2 =>
    obtain ⟨⟨ys, r⟩, more, same⟩ := bind_eq_ok.1 others
    obtain ⟨rfl, -⟩ := Prod.mk.inj (Except.ok.inj same)
    exact List.forall_mem_cons.2 ⟨reads.onValue first, reads.onItems more⟩
  case h_3 => cases others

/-- And so are members, whatever stands in front. -/
theorem members_succ (reads : ReadsExact fuel) {front es : Entries}
    (exact : (Document.map front).Exact) (read : members (fuel + 1) front cs = .ok (es, rest)) :
    (Document.map es).Exact := by
  unfold members at read
  split at read
  case h_2 => cases read
  case h_1 more =>
    obtain ⟨⟨codes, r⟩, name, read⟩ := bind_eq_ok.1 read
    dsimp only at read
    split at read
    case h_2 => cases read
    case h_1 after _ =>
      obtain ⟨⟨x, r⟩, first, read⟩ := bind_eq_ok.1 read
      have grown := exact_insert exact (exact_key name) (reads.onValue first)
      dsimp only at read
      split at read
      case h_1 =>
        obtain ⟨rfl, -⟩ := Prod.mk.inj (Except.ok.inj read)
        exact grown
      case h_2 => exact reads.onMembers grown read
      case h_3 => cases read

end ReadsExact

/-- Every number of steps reads exactly. -/
theorem readsExact : (fuel : Nat) → ReadsExact fuel
  | 0 => ⟨nofun, nofun, nofun⟩
  | fuel + 1 =>
    have reads := readsExact fuel
    ⟨reads.value_succ, reads.items_succ, reads.members_succ⟩

/-- So what is read of a text can be written and read again. -/
theorem exact_read {s : String} {d : Document} (h : read s = .ok d) : d.Exact := by
  obtain ⟨⟨e, rest⟩, value, same⟩ := bind_eq_ok.1 h
  dsimp only at same
  split at same
  case isTrue =>
    obtain rfl := Except.ok.inj same
    exact (readsExact _).onValue value
  case isFalse => cases same

end Json
end Dialogue
