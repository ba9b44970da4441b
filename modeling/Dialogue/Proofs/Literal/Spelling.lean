import Dialogue.Literal.Token

/-!
# Spelled texts

Characters are spelled in the body of a literal as themselves, by an escape, or by their codes. What
is spelled reads back, and a literal ends where the first quotes end it that no backslash precedes.
-/

namespace Dialogue.Literal

/-! ## Spelled characters -/

/-- How the body of a literal may spell a character: as itself, by an escape, or by its code. -/
inductive Spells : Char → List Char → Prop
  | self {c : Char} (other : c ≠ '\\') : Spells c [c]
  | escape {c e : Char} (means : simpleEscape? e = some c.toNat) : Spells c ['\\', e]
  | code {c : Char} (small : c.toNat < 0x100) : Spells c ('\\' :: 'x' :: Text.hexDigits 2 c.toNat)

/-- The spellings of the characters of a text, one after the other. -/
inductive Spelled : List Char → List Char → Prop
  | nil : Spelled [] []
  | cons {c : Char} {cs ws us : List Char} (first : Spells c ws) (rest : Spelled cs us) :
    Spelled (c :: cs) (ws ++ us)

/-- Spellings may be put together. -/
theorem Spelled.append {cs ds ws us : List Char} (first : Spelled cs ws) (rest : Spelled ds us) :
    Spelled (cs ++ ds) (ws ++ us) := by
  induction first with
  | nil => exact rest
  | cons here _ ih =>
    rw [List.cons_append, List.append_assoc]
    exact .cons here ih

theorem Spells.spelled {c : Char} {ws : List Char} (h : Spells c ws) : Spelled [c] ws := by
  have spelled : Spelled [c] (ws ++ []) := .cons h .nil
  rwa [List.append_nil] at spelled

/-- A text is spelled character by character. -/
theorem Spelled.flatMap {write : Char → List Char} {cs : List Char}
    (each : ∀ c ∈ cs, Spells c (write c)) : Spelled cs (cs.flatMap write) := by
  induction cs with
  | nil => exact .nil
  | cons c cs ih => exact .cons (each c (.head _)) (ih fun d member => each d (.tail _ member))

/-- Two hexadecimal digits give the number back. -/
theorem hexCode?_hexDigits {n : Nat} (small : n < 0x100) (rest : List Char) :
    hexCode? 2 (Text.hexDigits 2 n ++ rest) = some n := by
  have digits : ∀ n < 0x100, (Text.hexDigits 2 n).mapM (digitIn? 16) =
      some [n / 16, n % 16] := by decide +kernel
  have two : (Text.hexDigits 2 n ++ rest).take 2 = Text.hexDigits 2 n := by
    simp [Text.hexDigits]
  have value : Number.natOfDigits 16 [n / 16, n % 16] = n := by
    simp only [Number.natOfDigits, List.foldl_cons, List.foldl_nil]
    omega
  simp only [hexCode?, two, digits n small, Option.bind_eq_bind, Option.bind_some, value,
    List.length_cons, List.length_nil]
  rw [if_pos ⟨by decide, by omega⟩]

/-- A spelled character is read in one step. -/
theorem unescape_append [CharNames] {c : Char} {ws : List Char} (h : Spells c ws) (fuel : Nat)
    (rest : List Char) : unescape false (fuel + 1) (ws ++ rest) =
      (unescape false fuel rest).map (c.toNat :: ·) := by
  cases h with
  | self other =>
    rw [List.cons_append, List.nil_append, unescape]
    rintro d ds same
    exact absurd same other
  | @escape e means =>
    have feed : e ≠ '\n' := by
      rintro rfl
      cases means
    simp [unescape, feed, means]
  | code small =>
    have length : hexLength? false 'x' = some 2 := rfl
    have none : simpleEscape? 'x' = none := rfl
    have hex := hexCode?_hexDigits small rest
    have left : (Text.hexDigits 2 c.toNat ++ rest).drop 2 = rest := by simp [Text.hexDigits]
    simp only [List.cons_append, unescape]
    rw [if_neg (by decide), none, length]
    simp only [hex, left, Option.bind_eq_bind, Option.bind_some]
    cases unescape false fuel rest <;> rfl

theorem Spells.length_pos {c : Char} {ws : List Char} (h : Spells c ws) : 0 < ws.length := by
  cases h <;> simp

/-- The body of a string stands for what it spells. -/
theorem unescape_of_spelled [CharNames] {cs ws : List Char} (h : Spelled cs ws) {fuel : Nat}
    (enough : ws.length < fuel) : unescape false fuel ws = some (cs.map Char.toNat) := by
  induction h generalizing fuel with
  | nil =>
    cases fuel with
    | zero => cases enough
    | succ fuel => rfl
  | @cons c cs ws us first _ ih =>
    cases fuel with
    | zero => cases enough
    | succ fuel =>
      have positive := first.length_pos
      have left : us.length < fuel := by
        rw [List.length_append] at enough
        omega
      rw [unescape_append first, ih left]
      rfl

theorem stringLiteral?_of_spelled [CharNames] {cs ws : List Char} (h : Spelled cs ws) :
    stringLiteral? {} ws = some (.text (cs.map Char.toNat)) := by
  simp [stringLiteral?, unescape_of_spelled h (Nat.lt_succ_self _)]

/-! ## Where a literal ends -/

section

variable (long : Bool) (run : Nat) (body rest : List Char)

/-- A quote ends a string on one line. -/
theorem stringRun_close :
    stringRun '"' false run body ('"' :: rest) = some (body.reverse, rest) := by
  cases rest <;> simp [stringRun]

/-- The third quote in a row ends a block. -/
theorem stringRun_closeLong :
    stringRun '"' true 2 body ('"' :: rest) = some ((body.drop 2).reverse, rest) := by
  cases rest <;> simp [stringRun]

/-- Fewer quotes are part of it. -/
theorem stringRun_quote {run : Nat} (few : run ≠ 2) :
    stringRun '"' true run body ('"' :: rest) =
      stringRun '"' true (run + 1) ('"' :: body) rest := by
  cases rest <;> simp [stringRun, few]

/-- What follows a backslash closes nothing. -/
theorem stringRun_escape (e : Char) : stringRun '"' long run body ('\\' :: e :: rest) =
    stringRun '"' long 0 (e :: '\\' :: body) rest := by
  cases rest <;> simp [stringRun]

theorem stringRun_self {long : Bool} {c : Char} (quote : c ≠ '"') (backslash : c ≠ '\\')
    (feed : long = false → c ≠ '\n') :
    stringRun '"' long run body (c :: rest) = stringRun '"' long 0 (c :: body) rest := by
  cases rest <;> cases long <;> simp_all [stringRun]

/-- Three quotes in a row close a long literal. -/
theorem stringRun_quotes :
    stringRun '"' true 0 body ('"' :: '"' :: '"' :: rest) = some (body.reverse, rest) := by
  rw [stringRun_quote _ _ (by decide), stringRun_quote _ _ (by decide), stringRun_closeLong]
  rfl

end

/-- Characters that a reader passes on its way to the closing quotes, with no quote left pending. -/
def Passes (long : Bool) (ws : List Char) : Prop :=
  ∀ run body rest, stringRun '"' long run body (ws ++ rest) =
    stringRun '"' long 0 (ws.reverse ++ body) rest

theorem passes_self {long : Bool} {c : Char} (quote : c ≠ '"') (backslash : c ≠ '\\')
    (feed : long = false → c ≠ '\n') : Passes long [c] :=
  fun run body rest => stringRun_self run body rest quote backslash feed

/-- What a backslash precedes passes. -/
theorem passes_escape (long : Bool) (e : Char) : Passes long ['\\', e] :=
  fun run body rest => stringRun_escape long run body rest e

/-- What passes in pieces passes as a whole. -/
theorem Passes.append {long : Bool} {ws us : List Char} (first : Passes long ws)
    (rest : Passes long us) : Passes long (ws ++ us) := by
  intro run body more
  rw [List.append_assoc, first, rest, List.reverse_append, List.append_assoc]

def hexAlphabet : List Char :=
  ['0', '1', '2', '3', '4', '5', '6', '7', '8', '9', 'a', 'b', 'c', 'd', 'e', 'f']

theorem hexDigit_mem (n : Nat) : Text.hexDigit n ∈ hexAlphabet := by
  have alphabet : "0123456789abcdef".toList = hexAlphabet := rfl
  rw [Text.hexDigit, alphabet, List.getD_eq_getElem?_getD]
  cases h : hexAlphabet[n]? with
  | none => decide
  | some d => exact List.mem_of_getElem? h

theorem passes_code (long : Bool) (n : Nat) :
    Passes long ('\\' :: 'x' :: Text.hexDigits 2 n) := by
  have plain : ∀ d ∈ hexAlphabet, d ≠ '"' ∧ d ≠ '\\' ∧ d ≠ '\n' := by simp [hexAlphabet]
  have digit (n : Nat) : Passes long [Text.hexDigit n] := by
    obtain ⟨quote, backslash, feed⟩ := plain _ (hexDigit_mem n)
    exact passes_self quote backslash fun _ => feed
  exact (passes_escape long 'x').append ((digit _).append (digit _))

/-- From no quote pending, passed pieces leave none pending, even if there are no pieces. -/
theorem stringRun_flatMap {long : Bool} {write : Char → List Char} {cs : List Char}
    (each : ∀ c ∈ cs, Passes long (write c)) (body rest : List Char) :
    stringRun '"' long 0 body (cs.flatMap write ++ rest) =
      stringRun '"' long 0 ((cs.flatMap write).reverse ++ body) rest := by
  induction cs generalizing body with
  | nil => rfl
  | cons c cs ih =>
    have first := each c (.head _)
    rw [List.flatMap_cons, List.append_assoc, first, ih fun d member => each d (.tail _ member),
      List.reverse_append, List.append_assoc]

/-- A spelled text between quotes is read back, unless two quotes follow the first. -/
theorem string?_short [CharNames] {cs ws rest : List Char} (spelled : Spelled cs ws)
    (closes : stringRun '"' false 0 [] (ws ++ '"' :: rest) = some (ws, rest))
    (opens : ∀ more, ws ++ '"' :: rest ≠ '"' :: '"' :: more) :
    string? {} ('"' :: (ws ++ '"' :: rest)) = some (.text (cs.map Char.toNat), rest) := by
  have literal := stringLiteral?_of_spelled spelled
  generalize ws ++ '"' :: rest = start at closes opens ⊢
  match start with
  | [] => simp [string?, closes, literal]
  | [a] => simp [string?, closes, literal]
  | a :: b :: more =>
    have short : ¬ (a = '"' ∧ b = '"') := by
      rintro ⟨rfl, rfl⟩
      exact opens more rfl
    simp [string?, short, closes, literal]

/-- A block is read back up to the quotes that end it. -/
theorem string?_long [CharNames] {cs ws rest left : List Char} (spelled : Spelled cs ws)
    (closes : stringRun '"' true 0 [] rest = some (ws, left)) :
    string? {} ('"' :: '"' :: '"' :: rest) = some (.text (cs.map Char.toNat), left) := by
  simp [string?, closes, stringLiteral?_of_spelled spelled]

end Dialogue.Literal
