import Dialogue.Proofs.Json.Number
import Dialogue.Proofs.Literal.Scanning

/-!
# Numbers in written literals

A number without its sign is one token. The notation of floats is that of JSON, so what a literal
makes of it is what JSON reads; a whole number of too many digits is no token.
-/

namespace Dialogue.Literal

open Number (asciiDigit? cut decimalDigits decimalOf? digitRun? exponentOf? maxDigits)

/-! ## Runs of characters -/

/-- The characters are taken together as one number, wherever it ends. -/
def Runs (ws : List Char) : Prop :=
  ∀ afterMark rest, Ended rest → numberRun true afterMark (ws ++ rest) = (ws, rest)

section

variable {c : Char} {ds ws : List Char}

theorem runs_nil : Runs [] := by
  intro afterMark rest stop
  cases rest with
  | nil => rfl
  | cons c rest =>
    obtain ⟨word, sign, point, -, -⟩ := stop.not_word
    simp [numberRun, word, point, sign]

/-- A run goes on with a letter, a digit or a point. -/
theorem Runs.cons (belongs : isWordChar c ∨ c = '.') (runs : Runs ws) : Runs (c :: ws) := by
  intro afterMark rest stop
  have taken : (isWordChar c || c == '.') = true := by simpa using belongs
  rw [List.cons_append, numberRun, taken, Bool.true_or, if_pos rfl, runs _ rest stop]

/-- A sign belongs to a number behind the mark of an exponent. -/
theorem Runs.signed {mark : Char} (marked : mark = 'e' ∨ mark = 'E') (sign : isSign c)
    (runs : Runs ws) : Runs (mark :: c :: ws) := by
  intro afterMark rest stop
  have taken : (isWordChar mark || mark == '.') = true ∧ (mark == 'e' || mark == 'E') = true := by
    obtain rfl | rfl := marked <;> decide
  rw [List.cons_append, numberRun, taken.1, Bool.true_or, if_pos rfl, taken.2, List.cons_append,
    numberRun, if_pos (by simp [sign]), runs _ rest stop]

theorem isWordChar_of_isDigit (digit : c.isDigit) : isWordChar c := by
  simp [isWordChar, Char.isAlphanum, digit]

theorem Runs.digits (digits : ∀ c ∈ ds, c.isDigit) (runs : Runs ws) : Runs (ds ++ ws) := by
  induction ds with
  | nil => exact runs
  | cons c ds ih =>
    rw [List.forall_mem_cons] at digits
    exact (ih digits.2).cons (.inl (isWordChar_of_isDigit digits.1))

end

/-! ## Digits -/

section

variable {cs ds : List Char} {c : Char}

theorem asciiDigit?_digit (digit : c.isDigit) : asciiDigit? c = some (c.toNat - 0x30) := by
  simp [asciiDigit?, digit]

/-- Digits are read as their values. -/
theorem digitRun?_digits (digits : ∀ c ∈ ds, c.isDigit) :
    digitRun? asciiDigit? ds = some (ds.map fun c => c.toNat - 0x30) := by
  fun_induction digitRun? asciiDigit? ds with
  | case1 => rfl
  | case2 c d cs ih => exact absurd (digits '_' (by simp)) (by decide)
  | case3 c cs _ ih =>
    rw [List.forall_mem_cons] at digits
    rw [asciiDigit?_digit digits.1, ih digits.2]
    rfl

/-- A run of digits holds no point and no mark of an exponent. -/
theorem digitRun?_none (member : c ∈ cs) (other : c.isDigit = false ∧ c ≠ '_') :
    digitRun? asciiDigit? cs = none := by
  fun_induction digitRun? asciiDigit? cs with
  | case1 => cases member
  | case2 d e cs ih =>
    rcases List.mem_cons.1 member with rfl | later
    · simp [asciiDigit?, other.1]
    · rw [ih ((List.mem_cons.1 later).resolve_left other.2)]
      cases asciiDigit? d <;> rfl
  | case3 d cs _ ih =>
    rcases List.mem_cons.1 member with rfl | later
    · simp [asciiDigit?, other.1]
    · rw [ih later]
      cases asciiDigit? d <;> rfl

/-- A text is cut at the first mark. -/
theorem cut_append {p : Char → Bool} {as bs : List Char} (before : ∀ c ∈ as, p c = false)
    (mark : ∀ c ∈ bs.head?, p c = true) : cut p (as ++ bs) = (as, bs.tail?) := by
  have passed : ∀ c ∈ as, (!p c) = true := fun c member => by simp [before c member]
  have stop : bs.takeWhile (!p ·) = [] ∧ bs.dropWhile (!p ·) = bs := by
    cases bs with
    | nil => exact ⟨rfl, rfl⟩
    | cons c bs =>
      have first := mark c rfl
      simp [first]
  rw [cut, List.takeWhile_append_of_pos passed, List.dropWhile_append_of_pos passed, stop.1, stop.2,
    List.append_nil]
  cases bs <;> rfl

/-! ## The parts of a number -/

/-- A fraction with its point, if there is one. -/
def IsFraction (fs ws : List Char) : Prop :=
  (∀ c ∈ fs, c.isDigit) ∧ (fs = [] ∧ ws = [] ∨ fs ≠ [] ∧ ws = '.' :: fs)

/-- An exponent with its mark and perhaps a sign, if there is one. -/
def IsExponent (e : Option Int) (ws : List Char) : Prop :=
  e = none ∧ ws = [] ∨ ∃ mark sign ds x, (mark = 'e' ∨ mark = 'E') ∧ sign ∈ [[], ['-'], ['+']] ∧
    (∀ c ∈ ds, c.isDigit) ∧ ws = mark :: (sign ++ ds) ∧ e = some x ∧
      exponentOf? asciiDigit? (some (sign ++ ds)) = some x

/-- What is taken are digits that stand in front. -/
theorem takeDigits_eq {rest : List Char} (taken : Json.takeDigits cs = (ds, rest)) :
    (∀ c ∈ ds, c.isDigit) ∧ cs = ds ++ rest := by
  obtain ⟨rfl, rfl⟩ := Prod.mk.inj taken
  exact ⟨fun c member => (List.mem_takeWhile_imp member :), List.takeWhile_append_dropWhile.symm⟩

theorem takeWhole_eq {rest : List Char} (taken : Json.takeWhole cs = (ds, rest)) :
    (∀ c ∈ ds, c.isDigit) ∧ cs = ds ++ rest := by
  unfold Json.takeWhole at taken
  split at taken
  case h_1 =>
    obtain ⟨rfl, rfl⟩ := Prod.mk.inj taken
    exact ⟨Json.isDigit_zero, rfl⟩
  case h_2 => exact takeDigits_eq taken

/-- What is taken as a fraction is one. -/
theorem isFraction_of_takeFraction {fs rest : List Char}
    (taken : Json.takeFraction cs = (fs, rest)) : ∃ ws, cs = ws ++ rest ∧ IsFraction fs ws := by
  have none (same : (([] : List Char), cs) = (fs, rest)) :
      ∃ ws, cs = ws ++ rest ∧ IsFraction fs ws := by
    obtain ⟨rfl, rfl⟩ := Prod.mk.inj same
    exact ⟨[], rfl, by simp, .inl ⟨rfl, rfl⟩⟩
  unfold Json.takeFraction at taken
  split at taken
  case h_1 more =>
    rcases digits : Json.takeDigits more with ⟨ds, left⟩
    simp only [digits] at taken
    split at taken
    case isTrue => exact none taken
    case isFalse some =>
      obtain ⟨rfl, rfl⟩ := Prod.mk.inj taken
      obtain ⟨own, rfl⟩ := takeDigits_eq digits
      exact ⟨'.' :: ds, rfl, own, .inr ⟨by simpa using some, rfl⟩⟩
  case h_2 => exact none taken

theorem exists_takeSign (cs : List Char) :
    ∃ sign ∈ [[], ['-'], ['+']], cs = sign ++ (Number.takeSign cs).2 := by
  unfold Number.takeSign
  split
  · exact ⟨['-'], by simp, rfl⟩
  · exact ⟨['+'], by simp, rfl⟩
  · exact ⟨[], by simp, rfl⟩

/-- What is taken as an exponent is one. -/
theorem isExponent_of_takeExponent {e : Option Int} (taken : Json.takeExponent cs = (e, [])) :
    IsExponent e cs := by
  have none (same : ((none : Option Int), cs) = (e, [])) : IsExponent e cs := by
    obtain ⟨rfl, rfl⟩ := Prod.mk.inj same
    exact .inl ⟨rfl, rfl⟩
  unfold Json.takeExponent at taken
  split at taken
  case h_1 mark more =>
    split at taken
    case isFalse => exact none taken
    case isTrue marked =>
      obtain ⟨sign, signs, same⟩ := exists_takeSign more
      rcases digits : Json.takeDigits (Number.takeSign more).2 with ⟨ds, left⟩
      simp only [digits] at taken
      split at taken
      case isTrue => exact none taken
      case isFalse some =>
        obtain ⟨rfl, rfl⟩ := Prod.mk.inj taken
        obtain ⟨own, body⟩ := takeDigits_eq digits
        rw [List.append_nil] at body
        rw [body] at same
        refine .inr ⟨mark, sign, ds, _, marked, signs, own, by rw [same], rfl, ?_⟩
        simp only [← same, exponentOf?, body, digitRun?_digits own, Option.bind_eq_bind,
          Option.bind_some, List.isEmpty_map]
        rw [if_neg some]
  case h_2 => exact none taken

/-- A decimal of so many parts, whichever there are. -/
theorem decimalOf?_parts {whole fs point ex : List Char} {e : Option Int}
    (digits : ∀ c ∈ whole, c.isDigit) (nonempty : whole ≠ []) (fraction : IsFraction fs point)
    (exponent : IsExponent e ex) : decimalOf? asciiDigit? (whole ++ (point ++ ex)) =
      some ⟨Json.digitsValue (whole ++ fs), e.getD 0 - fs.length⟩ := by
  have noMark {c : Char} (plain : c.isDigit ∨ c = '.') : (c == 'e' || c == 'E') = false := by
    by_contra mark
    rw [Bool.not_eq_false, Bool.or_eq_true, beq_iff_eq, beq_iff_eq] at mark
    obtain rfl | rfl := mark <;> exact absurd plain (by decide)
  have body : ∀ c ∈ whole ++ point, (c == 'e' || c == 'E') = false := by
    intro c member
    refine noMark ?_
    rcases List.mem_append.1 member with first | second
    · exact .inl (digits c first)
    · obtain ⟨own, ⟨-, rfl⟩ | ⟨-, rfl⟩⟩ := fraction
      · cases second
      · exact (List.mem_cons.1 second).symm.imp_left (own c)
  have mark : ∀ c ∈ ex.head?, (c == 'e' || c == 'E') = true := by
    obtain ⟨-, rfl⟩ | ⟨mark, sign, ds, x, marked, -, -, rfl, -, -⟩ := exponent
    · simp
    · obtain rfl | rfl := marked <;> simp
  have noPoint : ∀ c ∈ whole, (c == '.') = false := by
    intro c member
    by_contra point
    obtain rfl : c = '.' := by simpa using point
    exact absurd (digits '.' member) (by decide)
  have fractionPoint : ∀ c ∈ point.head?, (c == '.') = true := by
    obtain ⟨-, ⟨-, rfl⟩ | ⟨-, rfl⟩⟩ := fraction <;> simp
  have fractionDigits : point.tail?.getD [] = fs := by
    obtain ⟨-, ⟨rfl, rfl⟩ | ⟨-, rfl⟩⟩ := fraction <;> rfl
  have exponentValue : exponentOf? asciiDigit? ex.tail? = some (e.getD 0) := by
    obtain ⟨rfl, rfl⟩ | ⟨mark, sign, ds, x, -, -, -, rfl, rfl, value⟩ := exponent
    · rfl
    · exact value
  have cutMark := cut_append body mark
  rw [List.append_assoc] at cutMark
  simp only [decimalOf?, cutMark, cut_append noPoint fractionPoint, fractionDigits, exponentValue,
    digitRun?_digits digits, digitRun?_digits fraction.1, Option.bind_eq_bind, Option.bind_some,
    List.length_map]
  simp [nonempty, Json.digitsValue]

/-! ## Tokens -/

/-- The characters of a number without a base: it has no letter but the mark of an exponent. -/
def IsNumeral (ws : List Char) : Prop := ∀ c ∈ ws, c.isDigit ∨ c ∈ ['.', 'e', 'E', '-', '+']

theorem isNumeral_digits (digits : ∀ c ∈ ds, c.isDigit) : IsNumeral ds :=
  fun c member => .inl (digits c member)

/-- A numeral has no letters but the mark of its exponent. -/
theorem IsNumeral.no_letter (numeral : IsNumeral cs) :
    ∀ c ∈ cs, c ∉ ['x', 'X', 'o', 'O', 'b', 'B', 'j', 'J'] := by
  intro c member letter
  have plain := numeral c member
  simp only [List.mem_cons, List.not_mem_nil, or_false] at letter
  obtain rfl | rfl | rfl | rfl | rfl | rfl | rfl | rfl := letter <;> revert plain <;> simp

/-- It has no base of its own. -/
theorem baseOf?_numeral {rest : List Char} (numeral : IsNumeral cs) (stop : Ended rest)
    (nonempty : cs ≠ []) : baseOf? (cs ++ rest) = none := by
  have second : ∀ d ∈ (cs ++ rest).tail.head?, d ∉ ['x', 'X', 'o', 'O', 'b', 'B'] := by
    intro d there letter
    cases cs with
    | nil => exact nonempty rfl
    | cons c cs =>
      rw [List.cons_append, List.tail_cons, List.head?_append] at there
      cases first : cs.head? with
      | none =>
        rw [first] at there
        have ends := stop d there
        simp only [List.mem_cons, List.not_mem_nil, or_false] at letter
        obtain rfl | rfl | rfl | rfl | rfl | rfl := letter <;> revert ends <;> simp [stops]
      | some e =>
        rw [first] at there
        obtain rfl : e = d := by simpa using there
        refine numeral.no_letter e (List.mem_cons_of_mem c (List.mem_of_mem_head? first)) ?_
        exact (List.prefix_append ['x', 'X', 'o', 'O', 'b', 'B'] ['j', 'J']).subset letter
  generalize cs ++ rest = text at second ⊢
  unfold baseOf?
  split
  case h_1 c more =>
    have other := second c rfl
    simp only [List.mem_cons, List.not_mem_nil, or_false, not_or] at other
    simp [other]
  case h_2 => rfl

/-- A number that starts with a digit is one token, if it has a value. -/
theorem scans_numeral [CharNames] {depth : Nat} (digit : ∃ c more, ds = c :: more ∧ c.isDigit)
    (numeral : IsNumeral ds) (runs : Runs ds) :
    Scans depth ds ((number? ds).map fun l => [.leaf l]) := by
  obtain ⟨c, more, rfl, digit⟩ := digit
  have start : c ∉ spacing ∧ isOpening c = false ∧ isClosing c = false := by
    have other {d : Char} (notDigit : d.isDigit = false) : c ≠ d := by
      rintro rfl
      rw [digit] at notDigit
      cases notDigit
    have apart : ∀ d ∈ spacing ++ ['(', '[', '{', ')', ']', '}'], c ≠ d := by
      simp only [spacing, List.cons_append, List.nil_append, List.forall_mem_cons]
      exact ⟨other rfl, other rfl, other rfl, other rfl, other rfl, other rfl, other rfl, other rfl,
        other rfl, other rfl, other rfl, other rfl, List.forall_mem_nil _⟩
    rw [List.forall_mem_append] at apart
    refine ⟨fun member => apart.1 c member rfl, ?_⟩
    simp only [List.forall_mem_cons] at apart
    simp [isOpening, isClosing, apart]
  have first (rest : List Char) : startsNumber (c :: more ++ rest) := by
    rw [List.cons_append, startsNumber.eq_def]
    split
    case h_1 same =>
      obtain rfl := (List.cons.inj same).1
      exact absurd digit (by decide)
    case h_2 same =>
      obtain rfl := (List.cons.inj same).1
      exact digit
    case h_3 same => cases same
  have read (rest : List Char) (stop : Ended rest) : token? (c :: more ++ rest) =
      ((number? (c :: more)).map .leaf).map fun t => (t, rest) := by
    have run := runs false rest stop
    have base := baseOf?_numeral numeral stop (List.cons_ne_nil c more)
    have starts := first rest
    rw [List.cons_append] at run base starts ⊢
    simp only [token?, starts, if_true, base, Option.isNone_none, run, Option.map_map]
    rfl
  have scans : Scans depth (c :: more) (((number? (c :: more)).map .leaf).map fun t => [t]) :=
    scans_token _ start.1 start.2 read
  rw [Option.map_map] at scans
  exact scans

/-- It is a whole number, or else a float unless it is made of digits alone. -/
theorem number?_numeral (numeral : IsNumeral cs) (nonempty : cs ≠ []) : number? cs =
    match decimalInt? cs with
    | some n => some (.int n)
    | none => if cs.all Char.isDigit then none else (floatOf? cs).map .float := by
  have base := baseOf?_numeral numeral ended_nil nonempty
  have unit : ¬(cs.getLast? = some 'j' ∨ cs.getLast? = some 'J') := by
    rintro (last | last) <;>
      exact numeral.no_letter _ (List.mem_of_getLast? last) (by simp)
  rw [List.append_nil] at base
  rw [number?, base]
  exact if_neg unit

/-! ## Whole numbers and floats -/

/-- A whole number, unless it has too many digits to be read. -/
def whole? (n : Nat) : Option Literal :=
  if (decimalDigits n).length ≤ maxDigits then some (.int n) else none

/-- Written digits are the whole number, unless there are too many. -/
theorem number?_decimalDigits (n : Nat) : number? (decimalDigits n) = whole? n := by
  have digits : ∀ c ∈ decimalDigits n, c.isDigit := fun c => Json.isDigit_decimalDigits
  have nonempty := Json.decimalDigits_ne_nil n
  have value : Number.natOfDigits 10 ((decimalDigits n).map fun c => c.toNat - 0x30) = n :=
    Json.digitsValue_decimalDigits n
  have all : (decimalDigits n).all Char.isDigit := by simpa using digits
  rw [number?_numeral (isNumeral_digits digits) nonempty, all, if_pos rfl, decimalInt?,
    digitRun?_digits digits, Option.bind_eq_bind, Option.bind_some, value, List.length_map, whole?]
  by_cases zero : n = 0
  · subst zero
    rfl
  · have head : ((decimalDigits n).map fun c => c.toNat - 0x30).head? ≠ some 0 := by
      intro first
      obtain ⟨c, there, same⟩ := Option.map_eq_some_iff.1 ((List.head?_map ..).symm.trans first)
      have range := Char.isDigit_iff_toNat.1 (digits c (List.mem_of_mem_head? there))
      obtain rfl : c = '0' := Char.toNat_inj.1 (by have : '0'.toNat = 48 := rfl; omega)
      exact Json.head?_decimalDigits zero there
    rw [if_neg (by simpa using nonempty), if_neg head]
    by_cases short : (decimalDigits n).length ≤ maxDigits
    · simp [short, not_lt.2 short]
    · simp [short, not_le.1 short]

/-- They are scanned as one token. -/
theorem scans_decimalDigits [CharNames] {depth : Nat} (n : Nat) :
    Scans depth (decimalDigits n) ((whole? n).map fun l => [.leaf l]) := by
  have digits : ∀ c ∈ decimalDigits n, c.isDigit := fun c => Json.isDigit_decimalDigits
  have runs := runs_nil.digits digits
  rw [List.append_nil] at runs
  rw [← number?_decimalDigits]
  refine scans_numeral ?_ (isNumeral_digits digits) runs
  obtain ⟨c, more, same⟩ := List.exists_cons_of_ne_nil (Json.decimalDigits_ne_nil n)
  exact ⟨c, more, same, digits c (by simp [same])⟩

/-! ### Floats -/

theorem IsFraction.numeral {fs ws : List Char} (fraction : IsFraction fs ws) : IsNumeral ws := by
  obtain ⟨digits, ⟨-, rfl⟩ | ⟨-, rfl⟩⟩ := fraction
  · exact List.forall_mem_nil _
  · exact List.forall_mem_cons.2 ⟨.inr (by simp), isNumeral_digits digits⟩

theorem IsFraction.runs {fs ws us : List Char} (fraction : IsFraction fs ws) (runs : Runs us) :
    Runs (ws ++ us) := by
  obtain ⟨digits, ⟨-, rfl⟩ | ⟨-, rfl⟩⟩ := fraction
  · exact runs
  · exact (runs.digits digits).cons (.inr rfl)

theorem IsExponent.numeral {e : Option Int} {ws : List Char} (exponent : IsExponent e ws) :
    IsNumeral ws := by
  obtain ⟨-, rfl⟩ | ⟨mark, sign, ds, x, marked, signs, digits, rfl, -, -⟩ := exponent
  · exact List.forall_mem_nil _
  · refine List.forall_mem_cons.2 ⟨?_, List.forall_mem_append.2 ⟨?_, isNumeral_digits digits⟩⟩
    · obtain rfl | rfl := marked <;> simp
    · simp only [List.mem_cons, List.not_mem_nil, or_false] at signs
      obtain rfl | rfl | rfl := signs <;> simp

theorem IsExponent.runs {e : Option Int} {ws : List Char} (exponent : IsExponent e ws) :
    Runs ws := by
  obtain ⟨-, rfl⟩ | ⟨mark, sign, ds, x, marked, signs, digits, rfl, -, -⟩ := exponent
  · exact runs_nil
  · have body := runs_nil.digits digits
    rw [List.append_nil] at body
    simp only [List.mem_cons, List.not_mem_nil, or_false] at signs
    obtain rfl | rfl | rfl := signs
    · refine body.cons (.inl ?_)
      obtain rfl | rfl := marked <;> decide
    · exact body.signed marked rfl
    · exact body.signed marked rfl

/-- A point or the mark of an exponent makes a number a float. -/
theorem float_of_parts (whole : List Char) {fs point ex : List Char} {e : Option Int}
    (fraction : IsFraction fs point) (exponent : IsExponent e ex)
    (real : (fs.isEmpty && e.isNone) = false) :
    decimalInt? (whole ++ (point ++ ex)) = none ∧
      (whole ++ (point ++ ex)).all Char.isDigit = false := by
  obtain ⟨c, there, other⟩ : ∃ c ∈ point ++ ex, c.isDigit = false ∧ c ≠ '_' := by
    obtain ⟨-, ⟨rfl, rfl⟩ | ⟨-, rfl⟩⟩ := fraction
    · obtain ⟨rfl, rfl⟩ | ⟨mark, sign, ds, x, marked, -, -, rfl, -, -⟩ := exponent
      · cases real
      · exact ⟨mark, by simp, by obtain rfl | rfl := marked <;> decide⟩
    · exact ⟨'.', by simp, by decide⟩
  have member : c ∈ whole ++ (point ++ ex) := List.mem_append_right whole there
  refine ⟨by simp [decimalInt?, digitRun?_none member other], ?_⟩
  rw [List.all_eq_false]
  exact ⟨c, member, by simp [other.1]⟩

/-- What is read as a float has a fraction or an exponent behind its whole part. -/
theorem exists_parts_of_number {negative : Bool} {x : Float}
    (read : Json.number negative cs = .ok (.float x, [])) :
    ∃ whole fs point e ex, cs = whole ++ (point ++ ex) ∧ (∀ c ∈ whole, c.isDigit) ∧ whole ≠ [] ∧
      IsFraction fs point ∧ IsExponent e ex ∧ (fs.isEmpty && e.isNone) = false ∧
      x = Json.signedFloat negative
        (Decimal.toFloat ⟨Json.digitsValue (whole ++ fs), e.getD 0 - fs.length⟩) := by
  rcases first : Json.takeWhole cs with ⟨whole, tail⟩
  rcases second : Json.takeFraction tail with ⟨fs, more⟩
  rcases third : Json.takeExponent more with ⟨e, left⟩
  simp only [Json.number, first, second, third] at read
  by_cases none : whole.isEmpty
  · rw [if_pos none] at read
    cases read
  by_cases integer : fs.isEmpty && e.isNone
  · rw [if_neg none, if_pos integer] at read
    split at read <;> cases read
  rw [if_neg none, if_neg integer] at read
  obtain ⟨value, rfl⟩ := Prod.mk.inj (Except.ok.inj read)
  obtain ⟨digits, rfl⟩ := takeWhole_eq first
  obtain ⟨point, rfl, fraction⟩ := isFraction_of_takeFraction second
  exact ⟨whole, fs, point, e, more, rfl, digits, by simpa using none, fraction,
    isExponent_of_takeExponent third, Bool.eq_false_iff.2 integer,
    (Scalar.float.inj (Document.scalar.inj value)).symm⟩

/-- The notation of a float is a numeral for what is read from it. -/
theorem numeral_of_read {negative : Bool} {x : Float}
    (read : Json.number negative cs = .ok (.float x, [])) :
    (∃ c more, cs = c :: more ∧ c.isDigit) ∧ IsNumeral cs ∧ Runs cs ∧
      ∃ y, number? cs = some (.float y) ∧ x = Json.signedFloat negative y := by
  obtain ⟨whole, fs, point, e, ex, rfl, digits, nonempty, fraction, exponent, real, value⟩ :=
    exists_parts_of_number read
  have numeral : IsNumeral (whole ++ (point ++ ex)) := List.forall_mem_append.2
    ⟨isNumeral_digits digits, List.forall_mem_append.2 ⟨fraction.numeral, exponent.numeral⟩⟩
  obtain ⟨noInt, notDigits⟩ := float_of_parts whole fraction exponent real
  have number : number? (whole ++ (point ++ ex)) = some (.float (Decimal.toFloat
      ⟨Json.digitsValue (whole ++ fs), e.getD 0 - fs.length⟩)) := by
    rw [number?_numeral numeral (by simp [nonempty]), noInt, notDigits, floatOf?,
      decimalOf?_parts digits nonempty fraction exponent]
    rfl
  refine ⟨?_, numeral, (fraction.runs exponent.runs).digits digits, _, number, value⟩
  obtain ⟨c, ds, rfl⟩ := List.exists_cons_of_ne_nil nonempty
  exact ⟨c, ds ++ (point ++ ex), rfl, digits c (.head _)⟩

/-- The digits of a finite float are one token, the float itself but for its sign. -/
theorem scans_shortest [CharNames] {depth : Nat} {x : Float} (finite : x.isFinite) :
    ∃ y, Scans depth (Number.decimalChars (Decimal.shortest x)) (some [.leaf (.float y)]) ∧
      Json.signedFloat (Number.isNegative x) y = x := by
  obtain ⟨d, same, read⟩ :=
    Json.number_decimalChars (Number.isNegative x) (Decimal.shortest x) Json.ends_nil
  have back : Json.signedFloat (Number.isNegative x) d.toFloat = x :=
    Decimal.toFloat_shortest finite same
  rw [List.append_nil, back] at read
  obtain ⟨digit, numeral, runs, y, value, signed⟩ := numeral_of_read read
  have scans : Scans depth _ _ := scans_numeral digit numeral runs
  rw [value] at scans
  exact ⟨y, scans, signed.symm⟩

/-- Every decimal is written as a numeral. -/
theorem isNumeral_decimalChars (d : Decimal) : IsNumeral (Number.decimalChars d) := by
  obtain ⟨d', -, read⟩ := Json.number_decimalChars false d Json.ends_nil
  rw [List.append_nil] at read
  exact (numeral_of_read read).2.1

/-! ### Characters of numbers -/

open Script (Visible)

theorem IsNumeral.visible (numeral : IsNumeral cs) : ∀ c ∈ cs, Visible c := by
  intro c member
  rcases numeral c member with digit | other
  · have range : 48 ≤ c.toNat ∧ c.toNat ≤ 57 := Char.isDigit_iff_toNat.1 digit
    exact ⟨by omega, by omega⟩
  · simp only [List.mem_cons, List.not_mem_nil, or_false] at other
    obtain rfl | rfl | rfl | rfl | rfl := other <;> decide

theorem visible_intChars (n : Int) : ∀ c ∈ Number.intChars n, Visible c := by
  have digits : ∀ c ∈ decimalDigits n.natAbs, Visible c :=
    (isNumeral_digits fun c => Json.isDigit_decimalDigits).visible
  unfold Number.intChars
  split
  · exact List.forall_mem_cons.2 ⟨by decide, digits⟩
  · exact digits

/-- A float is written in visible characters. -/
theorem visible_floatChars (x : Float) : ∀ c ∈ Number.floatChars Number.plainNames x, Visible c := by
  have digits := (isNumeral_decimalChars (Decimal.shortest x)).visible
  have names : (∀ c ∈ "nan".toList, Visible c) ∧ ∀ c ∈ "inf".toList, Visible c := by
    simp [Visible]
  have body : ∀ c ∈ (if x.isInf then Number.plainNames.infinite.toList
      else Number.decimalChars (Decimal.shortest x)), Visible c := by
    split
    · exact names.2
    · exact digits
  unfold Number.floatChars
  split
  · exact names.1
  · dsimp only
    split
    · exact List.forall_mem_cons.2 ⟨by decide, body⟩
    · exact body

end

end Dialogue.Literal
