import Dialogue.Json.Reader
import Dialogue.Json.Writer
import Mathlib.Data.List.Chain

/-!
# JSON texts read back

A text is written between quotes, character by character or code point by code point, and each of
these is read in one step. A code point beyond the sixteen-bit ones takes the escapes of two
surrogates. So surrogates that pair with nothing are read back only where a high one does not stand
right before a low one.
-/

namespace Dialogue.Json

/-! ## Escapes by code -/

theorem hexValue?_hexDigit : ∀ n < 16, hexValue? (Text.hexDigit n) = some n := by decide

/-- Four hexadecimal digits give a code unit back. -/
theorem unit?_hexDigits {u : Nat} (small : u < 0x10000) (more : List Char) :
    unit? (Text.hexDigits 4 u ++ more) = some (u, more) := by
  have digit (n : Nat) : hexValue? (Text.hexDigit (n % 16)) = some (n % 16) :=
    hexValue?_hexDigit _ (by omega)
  have value : Number.natOfDigits 16 [u / 16 / 16 / 16 % 16, u / 16 / 16 % 16, u / 16 % 16, u % 16] =
      u := by
    simp only [Number.natOfDigits, List.foldl_cons, List.foldl_nil]
    omega
  simp [Text.hexDigits, unit?, digit, value]

theorem isHighSurrogate_iff {u : Nat} : isHighSurrogate u ↔ 0xd800 ≤ u ∧ u < 0xdc00 := by
  simp [isHighSurrogate]

theorem isLowSurrogate_iff {u : Nat} : isLowSurrogate u ↔ 0xdc00 ≤ u ∧ u < 0xe000 := by
  simp [isLowSurrogate]

/-- A character is no surrogate. -/
theorem toNat_lt_and_not_surrogate (c : Char) :
    c.toNat < 0x110000 ∧ isHighSurrogate c.toNat = false ∧ isLowSurrogate c.toNat = false := by
  have valid : c.toNat < 0xd800 ∨ 0xdfff < c.toNat ∧ c.toNat < 0x110000 := c.valid
  refine ⟨by omega, ?_, ?_⟩
  · rw [← Bool.not_eq_true, isHighSurrogate_iff]
    omega
  · rw [← Bool.not_eq_true, isLowSurrogate_iff]
    omega

/-- What follows is not the escape of a low surrogate. -/
def NoLowAhead (more : List Char) : Prop :=
  (∀ rest, more ≠ '\\' :: 'u' :: rest) ∨
    ∃ v < 0x10000, isLowSurrogate v = false ∧ ∃ rest, more = unitEscape v ++ rest

/-- A unit is read from its escape, alone unless a low surrogate follows a high one. -/
theorem escaped?_unit {u : Nat} (small : u < 0x10000) {more : List Char}
    (alone : isHighSurrogate u → NoLowAhead more) :
    escaped? ('u' :: Text.hexDigits 4 u ++ more) = some (u, more) := by
  rw [List.cons_append, escaped?, unit?_hexDigits small]
  simp only [Option.bind_eq_bind, Option.bind_some]
  split
  case isFalse => rfl
  case isTrue high =>
    rcases alone high with other | ⟨v, unit, notLow, rest, rfl⟩
    · split
      · exact absurd rfl (other _)
      · rfl
    · simp [unitEscape, unit?_hexDigits unit, notLow]

/-- A pair of surrogates is read as one code point. -/
theorem escaped?_pair {u v : Nat} (high : isHighSurrogate u) (low : isLowSurrogate v)
    (more : List Char) :
    escaped? ('u' :: Text.hexDigits 4 u ++ (unitEscape v ++ more)) =
      some (joinSurrogates u v, more) := by
  have first : u < 0x10000 := by
    have range := isHighSurrogate_iff.1 high
    omega
  have second : v < 0x10000 := by
    have range := isLowSurrogate_iff.1 low
    omega
  rw [List.cons_append, escaped?, unit?_hexDigits first]
  simp [high, low, unitEscape, unit?_hexDigits second]

/-! ## One step -/

/-- `ws` is read as the code point `u` in one step when `more` follows. -/
def Reads (u : Nat) (ws more : List Char) : Prop :=
  ∀ fuel, stringBody (fuel + 1) (ws ++ more) =
    (fun r => (u :: r.1, r.2)) <$> stringBody fuel more

theorem reads_escape {u : Nat} {ws more : List Char}
    (escape : escaped? (ws ++ more) = some (u, more)) : Reads u ('\\' :: ws) more := by
  intro fuel
  rw [List.cons_append, stringBody, escape]
  dsimp only
  cases stringBody fuel more <;> rfl

/-- A character that needs no escape is read as itself. -/
theorem reads_self {c : Char} (quote : c ≠ '"') (backslash : c ≠ '\\') (shown : 0x20 ≤ c.toNat)
    (more : List Char) : Reads c.toNat [c] more := by
  intro fuel
  have control : ¬c.toNat < 0x20 := by omega
  rw [List.cons_append, List.nil_append, stringBody.eq_def]
  simp only [control, if_false]
  cases stringBody fuel more <;> rfl

theorem reads_unitEscape {u : Nat} (small : u < 0x10000) {more : List Char}
    (alone : isHighSurrogate u → NoLowAhead more) : Reads u (unitEscape u) more :=
  reads_escape (escaped?_unit small alone)

/-- Every character is read back from how it is written. -/
theorem reads_escapeChar (c : Char) (more : List Char) : Reads c.toNat (escapeChar c) more := by
  unfold escapeChar
  split
  case h_8 quote backslash _ _ _ _ _ =>
    split
    case isTrue control =>
      refine reads_unitEscape (by omega) fun high => ?_
      have range := isHighSurrogate_iff.1 high
      omega
    case isFalse shown => exact reads_self quote backslash (by omega) more
  all_goals exact reads_escape rfl

theorem toNat_ofNat_of_ascii {u : Nat} (ascii : u < 0x7f) : (Char.ofNat u).toNat = u := by
  have valid : u.isValidChar := .inl (by omega)
  rw [Char.ofNat, dif_pos valid]
  rfl

/-- So is every code point in plain letters. -/
theorem reads_asciiCode {u : Nat} (point : u < 0x110000) {more : List Char}
    (alone : isHighSurrogate u → NoLowAhead more) : Reads u (asciiCode u) more := by
  unfold asciiCode
  split
  case isTrue ascii =>
    simpa [toNat_ofNat_of_ascii ascii] using reads_escapeChar (Char.ofNat u) more
  case isFalse =>
    split
    case isTrue unit => exact reads_unitEscape unit alone
    case isFalse far =>
      have high : isHighSurrogate (0xd800 + (u - 0x10000) / 0x400) := by
        rw [isHighSurrogate_iff]
        omega
      have low : isLowSurrogate (0xdc00 + (u - 0x10000) % 0x400) := by
        rw [isLowSurrogate_iff]
        omega
      have joined : joinSurrogates (0xd800 + (u - 0x10000) / 0x400)
          (0xdc00 + (u - 0x10000) % 0x400) = u := by
        unfold joinSurrogates
        omega
      have pair := escaped?_pair high low more
      rw [joined, ← List.append_assoc] at pair
      exact reads_escape pair

/-! ## Whole texts -/

theorem stringBody_quote (fuel : Nat) (rest : List Char) :
    stringBody (fuel + 1) ('"' :: rest) = .ok ([], rest) := rfl

/-- A text is read back up to its closing quote. -/
theorem stringBody_flatMap_escapeChar (cs rest : List Char) {fuel : Nat}
    (enough : cs.length < fuel) :
    stringBody fuel (cs.flatMap escapeChar ++ '"' :: rest) = .ok (cs.map Char.toNat, rest) := by
  induction cs generalizing fuel with
  | nil =>
    obtain ⟨fuel, rfl⟩ := Nat.exists_eq_add_of_lt enough
    exact stringBody_quote _ rest
  | cons c cs ih =>
    obtain ⟨fuel, rfl⟩ : ∃ n, fuel = n + 1 := ⟨fuel - 1, by omega⟩
    rw [List.flatMap_cons, List.append_assoc, reads_escapeChar c,
      ih (by simpa using enough)]
    rfl

/-- No high surrogate stands right before a low one. -/
def Unsplit (codes : List Nat) : Prop :=
  codes.IsChain fun u v => ¬(isHighSurrogate u ∧ isLowSurrogate v)

theorem noLowAhead_escapeChar {c : Char} (ascii : c.toNat < 0x7f) (rest : List Char) :
    NoLowAhead (escapeChar c ++ rest) := by
  unfold escapeChar
  split
  case h_8 _ backslash _ _ _ _ _ =>
    split
    case isTrue control =>
      exact .inr ⟨c.toNat, by omega, (toNat_lt_and_not_surrogate c).2.2, rest, rfl⟩
    case isFalse =>
      refine .inl fun more same => backslash ?_
      simpa using congrArg List.head? same
  all_goals exact .inl fun more same => by cases same

/-- No low surrogate stands ahead where none is written. -/
theorem noLowAhead_asciiCode {v : Nat} (point : v < 0x110000) (low : isLowSurrogate v = false)
    (rest : List Char) : NoLowAhead (asciiCode v ++ rest) := by
  unfold asciiCode
  split
  case isTrue ascii =>
    refine noLowAhead_escapeChar ?_ rest
    rwa [toNat_ofNat_of_ascii ascii]
  case isFalse =>
    split
    case isTrue unit => exact .inr ⟨v, unit, low, rest, rfl⟩
    case isFalse far =>
      refine .inr ⟨_, ?_, ?_, unitEscape (0xdc00 + (v - 0x10000) % 0x400) ++ rest,
        by rw [List.append_assoc]⟩
      · omega
      · rw [← Bool.not_eq_true, isLowSurrogate_iff]
        omega

/-- Code points are read back as long as none of them pair by chance. -/
theorem stringBody_flatMap_asciiCode {codes : List Nat} (points : ∀ u ∈ codes, u < 0x110000)
    (unsplit : Unsplit codes) (rest : List Char) {fuel : Nat} (enough : codes.length < fuel) :
    stringBody fuel (codes.flatMap asciiCode ++ '"' :: rest) = .ok (codes, rest) := by
  induction codes generalizing fuel with
  | nil =>
    obtain ⟨fuel, rfl⟩ := Nat.exists_eq_add_of_lt enough
    exact stringBody_quote _ rest
  | cons u codes ih =>
    obtain ⟨fuel, rfl⟩ : ∃ n, fuel = n + 1 := ⟨fuel - 1, by omega⟩
    have alone : isHighSurrogate u → NoLowAhead (codes.flatMap asciiCode ++ '"' :: rest) := by
      intro high
      cases codes with
      | nil => exact .inl fun more same => by cases same
      | cons v codes =>
        have low : isLowSurrogate v = false := by
          have apart := (List.isChain_cons_cons.1 unsplit).1
          simpa [high] using apart
        rw [List.flatMap_cons, List.append_assoc]
        exact noLowAhead_asciiCode (points v (by simp)) low _
    rw [List.flatMap_cons, List.append_assoc, reads_asciiCode (points u (.head _)) alone,
      ih (fun v member => points v (.tail _ member)) unsplit.tail (by simpa using enough)]
    rfl

/-! ## Scalars in quotes -/

/-- `ws` is a text in quotes that is read as the scalar `s`. -/
def Quotes (s : Scalar) (ws : List Char) : Prop :=
  ∃ body, ws = '"' :: body ∧ ∀ rest, ∃ codes,
    stringBody ((body ++ rest).length + 1) (body ++ rest) = .ok (codes, rest) ∧
      Scalar.ofCodes codes = s

/-- The codes of characters are a text. -/
theorem ofCodes_toNat (cs : List Char) :
    Scalar.ofCodes (cs.map Char.toNat) = .text (String.ofList cs) := by
  have valid : (cs.map Char.toNat).all Nat.isValidChar := by
    simpa [List.all_map] using fun c _ => c.valid
  have chars : (cs.map Char.toNat).map Char.ofNat = cs := by
    rw [List.map_map]
    exact List.map_id'' (fun c => Char.ofNat_toNat c) cs
  rw [Scalar.ofCodes, if_pos valid, chars]

theorem length_le_flatMap {α β : Type} {f : α → List β} (some : ∀ a, f a ≠ []) (as : List α) :
    as.length ≤ (as.flatMap f).length := by
  induction as with
  | nil => simp
  | cons a as ih =>
    have one : 0 < (f a).length := List.length_pos_iff.2 (some a)
    simp only [List.flatMap_cons, List.length_append, List.length_cons]
    omega

theorem escapeChar_ne_nil (c : Char) : escapeChar c ≠ [] := by
  unfold escapeChar
  split
  case h_8 => split <;> simp
  all_goals simp

theorem asciiCode_ne_nil (u : Nat) : asciiCode u ≠ [] := by
  unfold asciiCode
  split
  · exact escapeChar_ne_nil _
  · split <;> simp [unitEscape]

/-- Every text is read back from its quotes. -/
theorem quotes_quotedChars (cs : List Char) :
    Quotes (.text (String.ofList cs)) (quotedChars cs) := by
  refine ⟨cs.flatMap escapeChar ++ ['"'], rfl, fun rest => ⟨_, ?_, ofCodes_toNat cs⟩⟩
  have length := length_le_flatMap escapeChar_ne_nil cs
  rw [List.append_assoc]
  refine stringBody_flatMap_escapeChar cs rest ?_
  simp only [List.length_append]
  omega

theorem quotes_quotedCodes {codes : List Nat} (points : ∀ u ∈ codes, u < 0x110000)
    (unsplit : Unsplit codes) : Quotes (Scalar.ofCodes codes) (quotedCodes codes) := by
  refine ⟨codes.flatMap asciiCode ++ ['"'], rfl, fun rest => ⟨codes, ?_, rfl⟩⟩
  have length := length_le_flatMap asciiCode_ne_nil codes
  rw [List.append_assoc]
  refine stringBody_flatMap_asciiCode points unsplit rest ?_
  simp only [List.length_append]
  omega

/-- The characters of a text have no surrogates among them. -/
theorem unsplit_toNat (cs : List Char) : Unsplit (cs.map Char.toNat) := by
  refine (List.pairwise_map.2 (List.pairwise_of_forall fun c d => ?_)).isChain
  simp [(toNat_lt_and_not_surrogate c).2.1]

theorem quotes_text (l : Layout) (s : String) : Quotes (.text s) (l.text s) := by
  unfold Layout.text
  split
  · have points : ∀ u ∈ s.toList.map Char.toNat, u < 0x110000 := by
      simp only [List.mem_map, forall_exists_index, and_imp, forall_apply_eq_imp_iff₂]
      exact fun c _ => (toNat_lt_and_not_surrogate c).1
    simpa [ofCodes_toNat] using quotes_quotedCodes points (unsplit_toNat s.toList)
  · simpa using quotes_quotedChars s.toList

end Dialogue.Json
