import Dialogue.Proofs.Script.Quoting

/-!
# Tokens of written literals

Which tokens a piece of a written literal is scanned into, whatever precedes it and whatever follows
that ends its last token. Pieces are joined by marks and blanks; a number out of reach has no token.
-/

namespace Dialogue.Literal

/-- Characters that no number, name or string goes on with. -/
def stops : List Char := [',', ':', ']', '}', '\n', ' ', '\t', '\x0c']

/-- What follows goes on with none of the tokens that a literal may end in. -/
def Ended (rest : List Char) : Prop := ∀ c ∈ rest.head?, c ∈ stops

theorem ended_nil : Ended [] := by simp [Ended]

theorem ended_cons {c : Char} (stop : c ∈ stops) (rest : List Char) :
    Ended (c :: rest) := by
  intro d first
  obtain rfl : c = d := by simpa using first
  exact stop

/-- What ends a token cannot go on with it. -/
theorem Ended.not_word {c : Char} {rest : List Char} (stop : Ended (c :: rest)) :
    isWordChar c = false ∧ isSign c = false ∧ c ≠ '.' ∧ c ≠ '\'' ∧ c ≠ '"' := by
  have member := stop c rfl
  simp only [stops, List.mem_cons, List.not_mem_nil, or_false] at member
  obtain rfl | rfl | rfl | rfl | rfl | rfl | rfl | rfl := member <;> decide

/-- A token ends where what follows does. -/
theorem Ended.append {ws rest : List Char} (first : Ended ws) (ended : Ended rest) :
    Ended (ws ++ rest) := by
  cases ws with
  | nil => exact ended
  | cons c ws => exact first

/-! ## One token -/

/-- Characters that a line inside brackets passes over or treats on their own. -/
def spacing : List Char := [' ', '\t', '\x0c', '\n', '#', '\\']

section

variable [CharNames] {depth fuel : Nat} {c : Char} {cs rest : List Char}

/-- Blanks are passed over. -/
theorem tokensFrom_blank (blank : c ∈ [' ', '\t', '\x0c']) :
    tokensFrom (fuel + 1) false depth (c :: cs) = tokensFrom fuel false depth cs := by
  simp only [List.mem_cons, List.not_mem_nil, or_false] at blank
  obtain rfl | rfl | rfl := blank <;> simp [tokensFrom]

/-- So are line feeds inside brackets. -/
theorem tokensFrom_feed (inside : depth ≠ 0) :
    tokensFrom (fuel + 1) false depth ('\n' :: cs) = tokensFrom fuel false depth cs := by
  simp [tokensFrom, inside]

/-- The depth behind a token that starts with `c`. -/
def depthAfter (depth : Nat) (c : Char) : Option Nat :=
  if isOpening c then (if depth < maxDepth then some (depth + 1) else none)
  else if isClosing c then (if depth = 0 then none else some (depth - 1))
  else some depth

/-- Anything else starts a token, and the rest is scanned at the depth behind it. -/
theorem tokensFrom_token (start : c ∉ spacing) :
    tokensFrom (fuel + 1) false depth (c :: cs) = (token? (c :: cs)).bind fun t =>
      (depthAfter depth c).bind fun after =>
        (tokensFrom fuel false after t.2).map (t.1 :: ·) := by
  simp only [spacing, List.mem_cons, List.not_mem_nil, or_false, not_or] at start
  obtain ⟨space, tab, form, feed, comment, backslash⟩ := start
  rw [tokensFrom]
  · rw [if_neg (by simp [space, tab, form])]
    cases token? (c :: cs) with
    | none => rfl
    | some t =>
      obtain ⟨t, rest⟩ := t
      simp only [Option.bind_eq_bind, Option.bind_some, depthAfter, Option.map_eq_bind,
        Function.comp_def]
      by_cases opening : isOpening c
      · simp [opening]
      · by_cases closing : isClosing c <;> simp [opening, closing]
  all_goals simp_all

theorem token?_mark (mark : c ∈ ['[', ']', '{', '}', ',', ':', '-']) :
    token? (c :: cs) = some (.mark c, cs) := by
  simp only [List.mem_cons, List.not_mem_nil, or_false] at mark
  obtain rfl | rfl | rfl | rfl | rfl | rfl | rfl := mark <;> rfl

end

/-! ## Pieces -/

variable [CharNames]

/-- With so many brackets open, scanning `ws` gives the tokens and takes at most a step for each
character; without tokens the scan comes to nothing. -/
def Scans (depth : Nat) (ws : List Char) (ts? : Option (List Token)) : Prop :=
  ∀ fuel rest, Ended rest → ws.length ≤ fuel → ∃ left, fuel ≤ left + ws.length ∧
    tokensFrom fuel false depth (ws ++ rest) =
      ts?.bind fun ts => (tokensFrom left false depth rest).map (ts ++ ·)

section

variable {depth : Nat} {c : Char} {ws us : List Char} {ts? us? : Option (List Token)}

theorem scans_nil (depth : Nat) : Scans depth [] (some []) := by
  intro fuel rest _ _
  exact ⟨fuel, Nat.le_refl _, by simp⟩

/-- Two texts are scanned one after the other if the first can end there. -/
theorem Scans.append (first : Scans depth ws ts?) (next : Scans depth us us?) (ended : Ended us) :
    Scans depth (ws ++ us) (ts?.bind fun ts => us?.map (ts ++ ·)) := by
  intro fuel rest stop enough
  rw [List.length_append] at enough ⊢
  obtain ⟨left, bound, scanned⟩ := first fuel (us ++ rest) (ended.append stop) (by omega)
  obtain ⟨left', bound', scanned'⟩ := next left rest stop (by omega)
  refine ⟨left', by omega, ?_⟩
  rw [List.append_assoc, scanned, scanned']
  cases ts? with
  | none => rfl
  | some ts =>
    cases us? with
    | none => rfl
    | some us => cases tokensFrom left' false depth rest <;> simp

/-- A scan that comes to nothing does not get to what follows. -/
theorem Scans.none_append (first : Scans depth ws none) (ended : Ended us) :
    Scans depth (ws ++ us) none := by
  intro fuel rest stop enough
  rw [List.length_append] at enough
  obtain ⟨left, bound, scanned⟩ := first fuel (us ++ rest) (ended.append stop) (by omega)
  exact ⟨fuel, by omega, by rw [List.append_assoc, scanned]; rfl⟩

/-- What the first step of a scan does to the rest of a piece. -/
theorem Scans.cons {f : List Token → List Token}
    (step : ∀ fuel cs, tokensFrom (fuel + 1) false depth (c :: cs) =
      (tokensFrom fuel false depth cs).map f)
    (front : ∀ ts us, f (ts ++ us) = f ts ++ us) (next : Scans depth ws ts?) :
    Scans depth (c :: ws) (ts?.map f) := by
  intro fuel rest stop enough
  rw [List.length_cons] at enough ⊢
  obtain ⟨fuel, rfl⟩ : ∃ n, fuel = n + 1 := ⟨fuel - 1, by omega⟩
  obtain ⟨left, bound, scanned⟩ := next fuel rest stop (by omega)
  refine ⟨left, by omega, ?_⟩
  rw [List.cons_append, step, scanned]
  cases ts? with
  | none => rfl
  | some ts => cases tokensFrom left false depth rest <;> simp [front]

theorem Scans.blank (blank : c ∈ [' ', '\t', '\x0c']) (next : Scans depth ws ts?) :
    Scans depth (c :: ws) ts? := by
  have scans := next.cons (c := c) (f := id) (fun fuel cs => by simp [tokensFrom_blank blank])
    fun _ _ => rfl
  rwa [Option.map_id] at scans

/-- Inside brackets a line feed may stand in front. -/
theorem Scans.feed (inside : depth ≠ 0) (next : Scans depth ws ts?) :
    Scans depth ('\n' :: ws) ts? := by
  have scans := next.cons (c := '\n') (f := id) (fun fuel cs => by simp [tokensFrom_feed inside])
    fun _ _ => rfl
  rwa [Option.map_id] at scans

theorem Scans.blanks {margin : List Char} (blank : ∀ c ∈ margin, c ∈ [' ', '\t', '\x0c'])
    (next : Scans depth ws ts?) : Scans depth (margin ++ ws) ts? := by
  induction margin with
  | nil => exact next
  | cons c margin ih =>
    rw [List.forall_mem_cons] at blank
    exact (ih blank.2).blank blank.1

theorem Scans.mark (mark : c ∈ [',', ':', '-']) (next : Scans depth ws ts?) :
    Scans depth (c :: ws) (ts?.map (.mark c :: ·)) := by
  refine next.cons (fun fuel cs => ?_) fun _ _ => rfl
  have start : c ∉ spacing ∧ depthAfter depth c = some depth ∧
      token? (c :: cs) = some (.mark c, cs) := by
    simp only [List.mem_cons, List.not_mem_nil, or_false] at mark
    obtain rfl | rfl | rfl := mark <;>
      exact ⟨by decide, rfl, token?_mark (by decide)⟩
  rw [tokensFrom_token start.1, start.2.1, start.2.2]
  rfl

/-- Brackets around what is scanned one bracket deeper. -/
theorem Scans.bracket {d : Char} (pair : (c, d) ∈ [('[', ']'), ('{', '}')])
    (bound : depth < maxDepth) (inner : Scans (depth + 1) ws ts?) :
    Scans depth (c :: (ws ++ [d])) (ts?.map fun ts => .mark c :: (ts ++ [.mark d])) := by
  intro fuel rest stop enough
  simp only [List.length_cons, List.length_append, List.length_nil] at enough ⊢
  obtain ⟨fuel, rfl⟩ : ∃ n, fuel = n + 1 := ⟨fuel - 1, by omega⟩
  have opens (cs : List Char) : c ∉ spacing ∧ depthAfter depth c = some (depth + 1) ∧
      token? (c :: cs) = some (.mark c, cs) := by
    simp only [List.mem_cons, List.not_mem_nil, or_false, Prod.mk.injEq] at pair
    obtain ⟨rfl, -⟩ | ⟨rfl, -⟩ := pair <;>
      exact ⟨by decide, by simp [depthAfter, isOpening, bound], token?_mark (by decide)⟩
  have closes (cs : List Char) : d ∉ spacing ∧ depthAfter (depth + 1) d = some depth ∧
      token? (d :: cs) = some (.mark d, cs) ∧ Ended (d :: cs) := by
    simp only [List.mem_cons, List.not_mem_nil, or_false, Prod.mk.injEq] at pair
    obtain ⟨-, rfl⟩ | ⟨-, rfl⟩ := pair <;>
      exact ⟨by decide, rfl, token?_mark (by decide), ended_cons (by decide) cs⟩
  obtain ⟨start, deeper, opening⟩ := opens (ws ++ (d :: rest))
  obtain ⟨stops, shallower, closing, ends⟩ := closes rest
  obtain ⟨left, spent, scanned⟩ := inner fuel (d :: rest) ends (by omega)
  obtain ⟨left, rfl⟩ : ∃ n, left = n + 1 := ⟨left - 1, by omega⟩
  refine ⟨left, by omega, ?_⟩
  have text : c :: (ws ++ [d]) ++ rest = c :: (ws ++ (d :: rest)) := by simp
  rw [text, tokensFrom_token start, deeper, opening]
  simp only [Option.bind_some, scanned, tokensFrom_token stops, shallower, closing]
  cases ts? with
  | none => rfl
  | some ts => cases tokensFrom left false depth rest <;> simp

/-- A piece that is one token, or none that there is. -/
theorem scans_token (t? : Option Token) (start : c ∉ spacing)
    (flat : isOpening c = false ∧ isClosing c = false)
    (read : ∀ rest, Ended rest → token? (c :: ws ++ rest) = t?.map fun t => (t, rest)) :
    Scans depth (c :: ws) (t?.map fun t => [t]) := by
  intro fuel rest stop enough
  rw [List.length_cons] at enough ⊢
  obtain ⟨fuel, rfl⟩ : ∃ n, fuel = n + 1 := ⟨fuel - 1, by omega⟩
  have level : depthAfter depth c = some depth := by simp [depthAfter, flat]
  refine ⟨fuel, by omega, ?_⟩
  have read := read rest stop
  rw [List.cons_append] at read ⊢
  rw [tokensFrom_token start, read, level]
  cases t? with
  | none => rfl
  | some t => simp

/-- A string literal is scanned as its text. -/
theorem scans_string (cs : List Char) :
    Scans depth (Script.stringChars cs) (some [.leaf (.text (cs.map Char.toNat))]) := by
  refine scans_token (some (.leaf (.text (cs.map Char.toNat)))) (by decide) (by decide)
    fun rest stop => ?_
  have ends : rest.head? ≠ some '"' := fun first => absurd (stop '"' first) (by decide)
  have read := Script.string?_string cs ends
  have kind : stringKind? [] = some {} := rfl
  have letter : isWordChar '"' = false := by decide
  have number (more : List Char) : startsNumber ('"' :: more) = false := rfl
  simp only [Script.stringChars, List.cons_append, List.append_assoc, List.nil_append] at read
  simp [token?, number, letter, kind, read]

omit [CharNames] in
/-- A word is taken up to its end. -/
theorem takeWhile_append_ended {ws rest : List Char} (word : ∀ c ∈ ws, isWordChar c)
    (stop : Ended rest) : (ws ++ rest).takeWhile isWordChar = ws ∧
      (ws ++ rest).dropWhile isWordChar = rest := by
  have none : rest.takeWhile isWordChar = [] ∧ rest.dropWhile isWordChar = rest := by
    cases rest with
    | nil => exact ⟨rfl, rfl⟩
    | cons c rest =>
      simp [stop.not_word.1]
  rw [List.takeWhile_append_of_pos word, List.dropWhile_append_of_pos word, none.1, none.2,
    List.append_nil]
  exact ⟨rfl, rfl⟩

/-- The names of the floats that have no digits. -/
theorem scans_name {name : String} (named : name ∈ ["inf", "nan"]) :
    Scans depth name.toList (some [.word name]) := by
  have shape : ∃ c cs, name.toList = c :: cs ∧ c ∉ spacing ∧ isOpening c = false ∧
      isClosing c = false ∧ c.isDigit = false ∧ c ≠ '.' ∧ (c :: cs).all isWordChar := by
    simp only [List.mem_cons, List.not_mem_nil, or_false] at named
    obtain rfl | rfl := named <;> exact ⟨_, _, rfl, by decide⟩
  obtain ⟨c, cs, chars, start, opens, closes, digit, point, word⟩ := shape
  rw [List.all_eq_true] at word
  rw [chars]
  refine scans_token (some (.word name)) start ⟨opens, closes⟩ fun rest stop => ?_
  obtain ⟨taken, left⟩ := takeWhile_append_ended word stop
  have quote : (rest.head?.any fun q => q == '\'' || q == '"') = false := by
    cases rest with
    | nil => rfl
    | cons d rest =>
      obtain ⟨-, -, -, single, double⟩ := stop.not_word
      simp [single, double]
  have number : startsNumber (c :: cs ++ rest) = false := by
    rw [List.cons_append, startsNumber.eq_def]
    split <;> simp_all
  have same : String.ofList (c :: cs) = name := by rw [← chars, String.ofList_toList]
  simp only [List.cons_append] at taken left number ⊢
  simp [token?, number, taken, left, quote, same]

/-! ## Whole texts -/

/-- No character is changed or refused before the text is scanned. -/
def Plain (cs : List Char) : Prop := ∀ c ∈ cs, c ≠ '\r' ∧ c ≠ '\x00'

omit [CharNames] in
/-- Line ends are left alone where there are no carriage returns. -/
theorem feedOnly_of_plain (plain : ∀ d ∈ ws, d ≠ '\r') : Text.feedOnly ws = ws := by
  induction ws with
  | nil => rfl
  | cons c cs ih =>
    rw [List.forall_mem_cons] at plain
    rw [Text.feedOnly, if_neg plain.1, ih plain.2]
    exact fun _ back _ => plain.1 back

omit [CharNames] in
/-- A token at the margin starts the line. -/
theorem lineStart_of_start (start : c ∉ spacing) : lineStart 0 0 (c :: ws) = some (0, c :: ws) := by
  simp only [spacing, List.mem_cons, List.not_mem_nil, or_false, not_or] at start
  rw [lineStart]
  · rfl
  all_goals simp_all

/-- The tokens of a whole text, which end in the end of its line. -/
theorem tokens?_of_scans (scans : Scans 0 (c :: ws) ts?) (start : c ∉ spacing)
    (plain : Plain (c :: ws)) : tokens? (c :: ws) = ts?.map (· ++ [.lineEnd]) := by
  have fed : Text.feedOnly (c :: ws) = c :: ws :=
    feedOnly_of_plain fun d member => (plain d member).1
  have clean : (c :: ws).contains '\x00' = false := by
    rw [List.contains_eq_mem, decide_eq_false_iff_not]
    exact fun member => (plain _ member).2 rfl
  obtain ⟨left, spent, scanned⟩ := scans (2 * (c :: ws).length + 1) [] ended_nil (by omega)
  obtain ⟨left, rfl⟩ : ∃ n, left = n + 1 := ⟨left - 1, by omega⟩
  have ends : tokensFrom (left + 1) false 0 [] = some [.lineEnd] := rfl
  rw [List.append_nil, ends] at scanned
  have feed : c ≠ '\n' ∧ c ≠ '#' := by
    simp only [spacing, List.mem_cons, List.not_mem_nil, or_false, not_or] at start
    exact ⟨start.2.2.2.1, start.2.2.2.2.1⟩
  rw [tokens?, fed, clean, if_neg (by decide), tokensFrom, lineStart_of_start start]
  simp only [Option.bind_eq_bind, Option.bind_some]
  split
  case h_1 empty => exact absurd empty (List.cons_ne_nil _ _)
  case h_2 line => exact absurd (List.cons.inj line).1 feed.1
  case h_3 line => exact absurd (List.cons.inj line).1 feed.2
  simp only [if_true, scanned]
  cases ts? <;> rfl

end

end Dialogue.Literal
