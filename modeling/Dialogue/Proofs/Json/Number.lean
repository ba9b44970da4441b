import Dialogue.Json.Reader
import Dialogue.Number.Text
import Dialogue.Proofs.Number.Shortest

/-!
# JSON numbers read back

Whole numbers are written by their digits, and finite floats by those of their shortest decimal,
with a point or an exponent. What is read is a decimal of the same value, in whichever form it is
written, so that it is the float again. The floats that are not finite have names.
-/

namespace Dialogue.Json

open Number (decimalDigits)

/-- Nothing follows with which a number would go on. -/
def Ends (rest : List Char) : Prop :=
  ∀ c ∈ rest.head?, c.isDigit = false ∧ c ≠ '.' ∧ c ≠ 'e' ∧ c ≠ 'E'

theorem ends_nil : Ends [] := by simp [Ends]

theorem ends_cons {c : Char} {rest : List Char} (digit : c.isDigit = false)
    (other : c ∉ ['.', 'e', 'E']) : Ends (c :: rest) := by
  simpa [Ends, digit] using other

/-! ## Digits -/

/-- Digits are taken up to the first other character. -/
theorem takeDigits_append {ds rest : List Char} (digits : ∀ c ∈ ds, c.isDigit)
    (stops : ∀ c ∈ rest.head?, c.isDigit = false) : takeDigits (ds ++ rest) = (ds, rest) := by
  have none : rest.takeWhile Char.isDigit = [] ∧ rest.dropWhile Char.isDigit = rest := by
    cases rest with
    | nil => simp
    | cons c rest =>
      have stop : c.isDigit = false := stops c rfl
      simp [stop]
  rw [takeDigits, List.takeWhile_append_of_pos digits, List.dropWhile_append_of_pos digits, none.1,
    none.2, List.append_nil]

theorem digitsValue_eq (ds : List Char) : digitsValue ds = Nat.ofDigitChars 10 ds 0 := by
  rw [digitsValue, Number.natOfDigits, List.foldl_map]
  rfl

@[simp] theorem digitsValue_decimalDigits (n : Nat) : digitsValue (decimalDigits n) = n := by
  rw [digitsValue_eq, decimalDigits, Nat.ofDigitChars_ten_toDigits]

/-- Digits stand for less than their count allows. -/
theorem digitsValue_lt {ds : List Char} (digits : ∀ c ∈ ds, c.isDigit) :
    digitsValue ds < 10 ^ ds.length := by
  induction ds using List.reverseRecOn with
  | nil => decide
  | append_singleton ds c ih =>
    have range : 48 ≤ c.toNat ∧ c.toNat ≤ 57 := Char.isDigit_iff_toNat.1 (digits c (by simp))
    have before := ih fun d member => digits d (by simp [member])
    have value : digitsValue (ds ++ [c]) = 10 * digitsValue ds + (c.toNat - 0x30) := by
      simp [digitsValue, Number.natOfDigits]
    rw [value, List.length_append, List.length_singleton, pow_succ]
    omega

/-- A number is not written with more digits than it was read from. -/
theorem length_decimalDigits_le {ds : List Char} (some : ds ≠ []) (digits : ∀ c ∈ ds, c.isDigit) :
    (decimalDigits (digitsValue ds)).length ≤ ds.length :=
  Nat.toDigits_length 10 _ _ (List.length_pos_iff.2 some) (digitsValue_lt digits)

@[simp] theorem natAbs_signed (negative : Bool) (n : Nat) :
    (Number.signed negative n).natAbs = n := by
  unfold Number.signed
  split <;> simp

theorem isDigit_decimalDigits {n : Nat} {c : Char} (member : c ∈ decimalDigits n) : c.isDigit :=
  Nat.isDigit_of_mem_toDigits (by decide) (by decide) member

theorem decimalDigits_ne_nil (n : Nat) : decimalDigits n ≠ [] := Nat.toDigits_ne_nil

/-- Only zero starts with a zero. -/
theorem head?_decimalDigits {n : Nat} (nonzero : n ≠ 0) : (decimalDigits n).head? ≠ some '0' := by
  induction n using Nat.strongRecOn with
  | ind n ih =>
    rw [decimalDigits, Nat.toDigits_eq_if (by decide)]
    split
    case isTrue => simpa using nonzero
    case isFalse large =>
      have first := ih (n / 10) (by omega) (by omega)
      rw [decimalDigits] at first
      rw [List.head?_append_of_ne_nil _ Nat.toDigits_ne_nil]
      exact first

/-- The whole digits of a number: a zero alone, or digits that start with another. -/
def IsWhole (ds : List Char) : Prop :=
  ds = ['0'] ∨ ds ≠ [] ∧ (∀ c ∈ ds, c.isDigit) ∧ ds.head? ≠ some '0'

/-- Digits that are written have no zeros in front. -/
theorem isWhole_decimalDigits (n : Nat) : IsWhole (decimalDigits n) := by
  by_cases zero : n = 0
  · subst zero
    exact .inl rfl
  · exact .inr ⟨decimalDigits_ne_nil n, fun _ => isDigit_decimalDigits, head?_decimalDigits zero⟩

/-- So they are taken as a whole part. -/
theorem takeWhole_append {ds rest : List Char} (whole : IsWhole ds)
    (stops : ∀ c ∈ rest.head?, c.isDigit = false) : takeWhole (ds ++ rest) = (ds, rest) := by
  rcases whole with rfl | ⟨some, digits, head⟩
  · rfl
  · have notZero : ∀ more, ds ++ rest ≠ '0' :: more := by
      intro more same
      cases ds with
      | nil => exact some rfl
      | cons c ds =>
        obtain rfl : c = '0' := (List.cons.inj same).1
        exact head rfl
    rw [takeWhole.eq_def]
    split
    case h_1 more same => exact absurd same (notZero more)
    case h_2 => exact takeDigits_append digits stops

theorem IsWhole.ne_nil {ds : List Char} (whole : IsWhole ds) : ds ≠ [] := by
  rcases whole with rfl | ⟨some, -, -⟩
  · simp
  · exact some

/-! ## The parts of a number -/

/-- A point with digits behind it is a fraction. -/
theorem takeFraction_point {fs rest : List Char} (some : fs ≠ []) (digits : ∀ c ∈ fs, c.isDigit)
    (stops : ∀ c ∈ rest.head?, c.isDigit = false) :
    takeFraction ('.' :: (fs ++ rest)) = (fs, rest) := by
  simp [takeFraction, takeDigits_append digits stops, some]

theorem takeFraction_none {rest : List Char} (other : rest.head? ≠ some '.') :
    takeFraction rest = ([], rest) := by
  unfold takeFraction
  split
  case h_1 more => exact absurd rfl other
  case h_2 => rfl

/-- There is no exponent where the number ends. -/
theorem takeExponent_none {rest : List Char} (ends : Ends rest) :
    takeExponent rest = (none, rest) := by
  unfold takeExponent
  split
  case h_1 c more =>
    obtain ⟨-, -, lower, upper⟩ := ends c rfl
    simp [lower, upper]
  case h_2 => rfl

/-- An exponent is read back with its sign. -/
theorem takeExponent_mark (x : Int) {ds rest : List Char} (value : digitsValue ds = x.natAbs)
    (some : ds ≠ []) (digits : ∀ c ∈ ds, c.isDigit)
    (stops : ∀ c ∈ rest.head?, c.isDigit = false) :
    takeExponent ('e' :: (if x < 0 then '-' else '+') :: (ds ++ rest)) = (Option.some x, rest) := by
  rw [digitsValue] at value
  by_cases negative : x < 0
  · simp [takeExponent, negative, Number.takeSign, takeDigits_append digits stops, some, value,
      Number.signed, abs_of_neg]
  · simp [takeExponent, negative, Number.takeSign, takeDigits_append digits stops, some, value,
      Number.signed, abs_of_nonneg (not_lt.1 negative)]

/-! ## Numbers -/

/-- Digits alone are a whole number. -/
theorem number_int (negative : Bool) {n : Nat} (short : (decimalDigits n).length ≤ Number.maxDigits)
    {rest : List Char} (ends : Ends rest) :
    number negative (decimalDigits n ++ rest) = .ok (.int (Number.signed negative n), rest) := by
  have stops : ∀ c ∈ rest.head?, c.isDigit = false := fun c member => (ends c member).1
  have fraction : takeFraction rest = ([], rest) :=
    takeFraction_none fun point => (ends '.' point).2.1 rfl
  have some := decimalDigits_ne_nil n
  simp [number, takeWhole_append (isWhole_decimalDigits n) stops, fraction, takeExponent_none ends,
    some, not_lt.2 short]

def signedFloat (negative : Bool) (x : Float) : Float := if negative then -x else x

/-- With a fraction or an exponent they are a float. -/
theorem number_float (negative : Bool) {ds tail fs more rest : List Char} {e : Option Int}
    (whole : IsWhole ds) (stops : ∀ c ∈ tail.head?, c.isDigit = false)
    (fraction : takeFraction tail = (fs, more)) (exponent : takeExponent more = (e, rest))
    (some : fs ≠ [] ∨ e ≠ none) : number negative (ds ++ tail) =
      .ok (.float (signedFloat negative
        (Decimal.toFloat ⟨digitsValue (ds ++ fs), e.getD 0 - fs.length⟩)), rest) := by
  have notInt : (fs.isEmpty && e.isNone) = false := by
    rw [Bool.and_eq_false_iff]
    rcases some with fraction | exponent
    · exact .inl (by simpa using fraction)
    · exact .inr (by simpa [Option.isSome_iff_ne_none] using exponent)
  simp [number, takeWhole_append whole stops, whole.ne_nil, fraction, exponent, notInt, signedFloat]

/-- What is read stands for the same number as a decimal. -/
def ReadsAs (negative : Bool) (d : Decimal) (ws rest : List Char) : Prop :=
  ∃ d' : Decimal, d'.value = d.value ∧
    number negative (ws ++ rest) = .ok (.float (signedFloat negative d'.toFloat), rest)

section

variable {cs rest : List Char} {n : Nat} {x : Int} {negative : Bool}

theorem isDigit_zero : ∀ c ∈ ['0'], c.isDigit := by simp

theorem isDigit_zeros (k : Nat) : ∀ c ∈ List.replicate k '0', c.isDigit := by
  intro c member
  rw [List.eq_of_mem_replicate member]
  rfl

/-- Zeros may follow unless they follow zero. -/
theorem IsWhole.append {ds : List Char} (whole : IsWhole ds) (notZero : ds ≠ ['0'])
    {more : List Char} (digits : ∀ c ∈ more, c.isDigit) : IsWhole (ds ++ more) := by
  obtain ⟨some, own, head⟩ := whole.resolve_left notZero
  refine .inr ⟨by simp [some], ?_, by rwa [List.head?_append_of_ne_nil _ some]⟩
  intro c member
  rcases List.mem_append.1 member with first | second
  · exact own c first
  · exact digits c second

theorem IsWhole.digits {ds : List Char} (whole : IsWhole ds) : ∀ c ∈ ds, c.isDigit := by
  rcases whole with rfl | ⟨-, digits, -⟩
  · simp
  · exact digits

theorem IsWhole.take {ds : List Char} (whole : IsWhole ds) {k : Nat} (positive : 0 < k) :
    IsWhole (ds.take k) := by
  obtain ⟨k, rfl⟩ : ∃ j, k = j + 1 := ⟨k - 1, by omega⟩
  rcases whole with rfl | ⟨some, digits, head⟩
  · exact .inl (by simp)
  · refine .inr ⟨by simp [some], fun c member => digits c (List.mem_of_mem_take member), ?_⟩
    cases ds with
    | nil => exact absurd rfl some
    | cons c ds => simpa using head

/-- Zeros in front do not count. -/
theorem digitsValue_zeros (k : Nat) (cs : List Char) :
    digitsValue ('0' :: (List.replicate k '0' ++ cs)) = digitsValue cs := by
  simp [digitsValue_eq, Nat.ofDigitChars_cons, Nat.ofDigitChars_append]

/-- Zeros behind are powers of ten. -/
theorem digitsValue_append_zeros (cs : List Char) (k : Nat) :
    digitsValue (cs ++ List.replicate k '0') = digitsValue cs * 10 ^ k := by
  simp [digitsValue_eq, Nat.ofDigitChars_append, Nat.mul_comm]

/-- Digits on both sides of a point, with no exponent. -/
theorem readsAs_fraction {whole ds : List Char} {d : Decimal} (isWhole : IsWhole whole)
    (some : ds ≠ []) (digits : ∀ c ∈ ds, c.isDigit) (ends : Ends rest)
    (same : (⟨digitsValue (whole ++ ds), -ds.length⟩ : Decimal).value = d.value) :
    ReadsAs negative d (whole ++ '.' :: ds) rest := by
  have read := number_float negative isWhole (by simp)
    (takeFraction_point some digits fun c member => (ends c member).1) (takeExponent_none ends)
    (.inl some)
  refine ⟨_, same, ?_⟩
  simpa using read

/-- Digits with a point among or beside them. -/
theorem readsAs_placePoint (nonzero : n ≠ 0) (ends : Ends rest) :
    ReadsAs negative ⟨n, x⟩
      (Number.placePoint (decimalDigits n) ((decimalDigits n).length + x)) rest := by
  have whole := isWhole_decimalDigits n
  have value := digitsValue_decimalDigits n
  have notZero : decimalDigits n ≠ ['0'] := by
    intro zero
    rw [zero] at value
    exact nonzero value.symm
  generalize decimalDigits n = cs at whole value notZero ⊢
  have some := whole.ne_nil
  unfold Number.placePoint
  dsimp only
  split
  case isTrue low =>
    obtain ⟨k, zeros⟩ : ∃ k : Nat, (-(cs.length + x)).toNat = k := ⟨_, rfl⟩
    have digits : ∀ c ∈ List.replicate k '0' ++ cs, c.isDigit :=
      List.forall_mem_append.2 ⟨isDigit_zeros k, whole.digits⟩
    have exponent : -((List.replicate k '0' ++ cs).length : Int) = x := by
      rw [List.length_append, List.length_replicate]
      omega
    rw [zeros]
    show ReadsAs negative ⟨n, x⟩ (['0'] ++ '.' :: (List.replicate k '0' ++ cs)) rest
    refine readsAs_fraction (.inl rfl) (by simp [some]) digits ends ?_
    rw [List.singleton_append, digitsValue_zeros, value, exponent]
  case isFalse high =>
    split
    case isTrue long =>
      obtain ⟨k, zeros⟩ : ∃ k : Nat, (cs.length + x).toNat - cs.length = k := ⟨_, rfl⟩
      have exponent : x = k := by omega
      have digits : digitsValue (cs ++ List.replicate k '0' ++ ['0']) = n * 10 ^ (k + 1) := by
        rw [List.append_assoc, ← List.replicate_succ', digitsValue_append_zeros, value]
      rw [zeros]
      refine readsAs_fraction (whole.append notZero (isDigit_zeros k)) (by simp) isDigit_zero ends ?_
      rw [digits, exponent]
      simp only [Decimal.value, Number.decimalValue, List.length_singleton, Nat.cast_one,
        zpow_neg_one, zpow_natCast]
      push_cast
      ring
    case isFalse short =>
      obtain ⟨p, point⟩ : ∃ p : Nat, (cs.length + x).toNat = p := ⟨_, rfl⟩
      have digits : ∀ c ∈ cs.drop p, c.isDigit := fun c member =>
        whole.digits c (List.mem_of_mem_drop member)
      have left : cs.drop p ≠ [] := by
        rw [Ne, List.drop_eq_nil_iff]
        omega
      have exponent : -((cs.drop p).length : Int) = x := by
        rw [List.length_drop]
        omega
      rw [point]
      refine readsAs_fraction (whole.take (by omega)) left digits ends ?_
      rw [List.take_append_drop, value, exponent]

theorem digitsValue_padZero (cs : List Char) : digitsValue (Number.padZero cs) = digitsValue cs := by
  unfold Number.padZero
  split
  case isTrue => exact digitsValue_zeros 0 cs
  case isFalse => rfl

theorem isDigit_padZero {cs : List Char} (digits : ∀ c ∈ cs, c.isDigit) :
    ∀ c ∈ Number.padZero cs, c.isDigit := by
  unfold Number.padZero
  split
  case isTrue => simpa using digits
  case isFalse => exact digits

theorem padZero_ne_nil (cs : List Char) : Number.padZero cs ≠ [] := by
  unfold Number.padZero
  split
  case isTrue => simp
  case isFalse long =>
    rintro rfl
    exact long (by decide)

/-- A leading digit, the others behind a point, and the exponent of the leading one. -/
theorem readsAs_exponentForm (ends : Ends rest) :
    ReadsAs negative ⟨n, x⟩
      (Number.exponentForm (decimalDigits n) ((decimalDigits n).length + x - 1)) rest := by
  have whole := isWhole_decimalDigits n
  have value := digitsValue_decimalDigits n
  generalize decimalDigits n = cs at whole value ⊢
  have stops : ∀ c ∈ rest.head?, c.isDigit = false := fun c member => (ends c member).1
  have exponent (lead : Int) := takeExponent_mark lead
    ((digitsValue_padZero _).trans (digitsValue_decimalDigits lead.natAbs)) (padZero_ne_nil _)
    (isDigit_padZero fun _ => isDigit_decimalDigits) stops
  unfold Number.exponentForm
  match cs with
  | [] => exact absurd rfl whole.ne_nil
  | [c] =>
    have read := number_float negative whole (by simp) (takeFraction_none (by simp)) (exponent x)
      (.inr (by simp))
    refine ⟨⟨n, x⟩, rfl, ?_⟩
    have lead : (1 : Int) + x - 1 = x := by omega
    simpa [lead, value] using read
  | c :: d :: ds =>
    have fraction : ∀ a ∈ d :: ds, a.isDigit := fun a member =>
      whole.digits a (List.mem_cons_of_mem c member)
    have first : IsWhole [c] := by simpa using whole.take (k := 1) (by decide)
    have read := number_float negative first (by simp)
      (takeFraction_point (by simp) fraction (by simp))
      (exponent ((c :: d :: ds).length + x - 1)) (.inl (by simp))
    refine ⟨⟨n, x⟩, rfl, ?_⟩
    have shifted : ((c :: d :: ds).length : Int) + x - 1 - (d :: ds).length = x := by
      simp only [List.length_cons]
      omega
    have together : digitsValue ([c] ++ d :: ds) = n := value
    rw [together, Option.getD_some, shifted] at read
    simpa using read

end

/-- A decimal is read back from its text, whichever way it is laid out. -/
theorem number_decimalChars (negative : Bool) (d : Decimal) {rest : List Char} (ends : Ends rest) :
    ReadsAs negative d (Number.decimalChars d) rest := by
  obtain ⟨n, x⟩ := d
  unfold Number.decimalChars
  dsimp only
  split
  case isTrue zero =>
    show ReadsAs negative ⟨n, x⟩ (['0'] ++ '.' :: ['0']) rest
    refine readsAs_fraction (.inl rfl) (by simp) isDigit_zero ends ?_
    simp [Decimal.value, Number.decimalValue, zero, digitsValue_eq, Nat.ofDigitChars_cons]
  case isFalse nonzero =>
    split
    case isTrue => exact readsAs_placePoint nonzero ends
    case isFalse => exact readsAs_exponentForm ends

/-! ## As values -/

/-- A number starts with a digit. -/
theorem digit_of_number {negative : Bool} {cs : List Char} {r : Document × List Char}
    (read : number negative cs = .ok r) : ∃ c more, cs = c :: more ∧ c.isDigit := by
  match cs with
  | [] => cases read
  | c :: more =>
    refine ⟨c, more, rfl, ?_⟩
    by_contra other
    have notZero : c ≠ '0' := by
      rintro rfl
      exact other rfl
    have whole : takeWhole (c :: more) = ([], c :: more) := by
      simp [takeWhole, takeDigits, notZero, other]
    rw [number, whole] at read
    cases read

theorem word?_digit {c : Char} (digit : c.isDigit) (more : List Char) :
    word? (c :: more) = none ∧ word? ('-' :: c :: more) = none := by
  have other (w : Char) (notDigit : w.isDigit = false) : w ≠ c := by
    rintro rfl
    rw [digit] at notDigit
    cases notDigit
  simp [word?, wordValues, after?, other]

/-- A number is what no other value starts like. -/
theorem value_number {negative : Bool} {cs : List Char} {r : Document × List Char}
    (read : number negative cs = .ok r) (fuel : Nat) :
    value (fuel + 1) (if negative then '-' :: cs else cs) = .ok r := by
  obtain ⟨c, more, rfl, digit⟩ := digit_of_number read
  obtain ⟨plain, signed⟩ := word?_digit digit more
  cases negative with
  | true => simpa [value, signed] using read
  | false =>
    have other {w : Char} (notDigit : w.isDigit = false) : c ≠ w := by
      rintro rfl
      rw [digit] at notDigit
      cases notDigit
    have quote : c ≠ '"' := other rfl
    have bracket : c ≠ '[' := other rfl
    have brace : c ≠ '{' := other rfl
    have minus : c ≠ '-' := other rfl
    simpa [value, quote, bracket, brace, minus, plain] using read

section

variable {rest : List Char} (fuel : Nat)

theorem value_intChars {n : Int}
    (short : (decimalDigits n.natAbs).length ≤ Number.maxDigits) (ends : Ends rest) :
    value (fuel + 1) (Number.intChars n ++ rest) = .ok (.int n, rest) := by
  have read := value_number (number_int (decide (n < 0)) short ends) fuel
  have signed : Number.signed (decide (n < 0)) n.natAbs = n := by
    simp only [Number.signed, decide_eq_true_eq]
    split <;> omega
  rw [signed] at read
  unfold Number.intChars
  split
  case isTrue negative => simpa [negative] using read
  case isFalse positive => simpa [positive] using read

/-- Three words name the floats that have no digits. -/
theorem value_floatChars (x : Float) (ends : Ends rest) :
    value (fuel + 1) (Number.floatChars Number.documentNames x ++ rest) = .ok (.float x, rest) := by
  unfold Number.floatChars
  split
  case isTrue undefined =>
    rw [Number.eq_notANumber undefined]
    rfl
  case isFalse number =>
    by_cases infinite : x.isInf
    · have same := Number.eq_infinity infinite
      rw [if_pos infinite]
      dsimp only
      split at same
      case isTrue negative =>
        rw [if_pos negative, same]
        rfl
      case isFalse positive =>
        rw [if_neg positive, same]
        rfl
    · have finite := Number.isFinite_of_not (by simpa using number) (by simpa using infinite)
      obtain ⟨d, same, read⟩ :=
        number_decimalChars (Number.isNegative x) (Decimal.shortest x) ends
      have back : signedFloat (Number.isNegative x) d.toFloat = x :=
        Decimal.toFloat_shortest finite same
      rw [back] at read
      have value := value_number read fuel
      rw [if_neg infinite]
      dsimp only
      split
      case isTrue negative => simpa [negative] using value
      case isFalse positive => simpa [positive] using value

end

end Dialogue.Json
