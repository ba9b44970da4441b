import Dialogue.Proofs.Literal.Spelling
import Dialogue.Script.Text
import Mathlib.Data.List.Induction

/-!
# Quoted texts

What a text reads back as from the string literals and block literals of generated code. String
literals give every text back, and so do block literals, but for texts that end in quotes of which
none is left after they are taken by threes: their last quote is escaped twice, and the literal ends
one quote early.
-/

namespace Dialogue.Script

open Literal

/-! ## How characters are written -/

/-- A character by its code if it is a control, else as it is. -/
def plainChar (c : Char) : List Char := if isControl c then controlChars c else [c]

theorem spells_plainChar {c : Char} (backslash : c ≠ '\\') : Spells c (plainChar c) := by
  unfold plainChar
  split
  case isTrue control =>
    refine .code ?_
    simp only [isControl, Bool.or_eq_true, Bool.and_eq_true, decide_eq_true_eq, beq_iff_eq]
      at control
    omega
  case isFalse => exact .self backslash

/-- No character of a text closes the string or breaks it. -/
theorem passes_plainChar {long : Bool} {c : Char} (quote : c ≠ '"') (backslash : c ≠ '\\')
    (feed : long = false → c ≠ '\n') : Passes long (plainChar c) := by
  unfold plainChar
  split
  · exact passes_code long c.toNat
  · exact passes_self quote backslash feed

theorem spells_escapeChar (c : Char) : Spells c (escapeChar c) := by
  unfold escapeChar
  split
  case h_6 backslash _ _ _ _ => exact spells_plainChar backslash
  all_goals exact .escape rfl

theorem passes_escapeChar (c : Char) : Passes false (escapeChar c) := by
  unfold escapeChar
  split
  case h_6 backslash quote _ feed _ => exact passes_plainChar quote backslash fun _ => feed
  all_goals exact passes_escape _ _

/-- In a block each character still reads as itself. -/
theorem spells_blockChar (c : Char) : Spells c (blockChar c) := by
  unfold blockChar
  split
  case h_3 backslash _ => exact spells_plainChar backslash
  all_goals exact .escape rfl

theorem passes_blockChar {c : Char} (quote : c ≠ '"') : Passes true (blockChar c) := by
  unfold blockChar
  split
  case h_3 backslash _ => exact passes_plainChar quote backslash nofun
  all_goals exact passes_escape _ _

/-! ## Block literals -/

def quotes (n : Nat) : List Char := List.replicate n '"'

/-- A text that does not end in a quote, taken apart as a block literal is written: three quotes at
a time, or at most two before another character. -/
inductive Unquoted : List Char → Prop
  | nil : Unquoted []
  | triple {cs : List Char} (rest : Unquoted cs) : Unquoted (quotes 3 ++ cs)
  | few {n : Nat} {c : Char} {cs : List Char} (bound : n ≤ 2) (other : c ≠ '"')
    (rest : Unquoted cs) : Unquoted (quotes n ++ c :: cs)

theorem getLast?_of_cons {c : Char} {cs : List Char} (last : (c :: cs).getLast? ≠ some '"') :
    cs.getLast? ≠ some '"' := by
  cases cs with
  | nil => simp
  | cons d ds => rwa [List.getLast?_cons_cons] at last

theorem unquoted_of_getLast? : ∀ cs : List Char, cs.getLast? ≠ some '"' → Unquoted cs
  | [], _ => .nil
  | [c], last => .few (n := 0) (by decide) (by simpa using last) .nil
  | [c, d], last => by
    have other : d ≠ '"' := by simpa using last
    by_cases first : c = '"'
    · obtain rfl := first
      exact .few (n := 1) (by decide) other .nil
    · exact .few (n := 0) (by decide) first (.few (n := 0) (by decide) other .nil)
  | c :: d :: e :: cs, last => by
    have last₁ := getLast?_of_cons last
    have last₂ := getLast?_of_cons last₁
    have last₃ := getLast?_of_cons last₂
    by_cases first : c = '"'
    · obtain rfl := first
      by_cases second : d = '"'
      · obtain rfl := second
        by_cases third : e = '"'
        · obtain rfl := third
          exact .triple (unquoted_of_getLast? cs last₃)
        · exact .few (n := 2) (by decide) third (unquoted_of_getLast? cs last₃)
      · exact .few (n := 1) (by decide) second (unquoted_of_getLast? (e :: cs) last₂)
    · exact .few (n := 0) (by decide) first (unquoted_of_getLast? (d :: e :: cs) last₁)

/-- How three quotes in a row are written. -/
def escapedQuotes : List Char := ['\\', '"', '\\', '"', '\\', '"']

/-- Three quotes are escaped as one. -/
theorem blockBody_triple (cs : List Char) :
    blockBody (quotes 3 ++ cs) = escapedQuotes ++ blockBody cs := rfl

theorem blockBody_cons {c : Char} {cs : List Char}
    (apart : ∀ ds, c :: cs ≠ '"' :: '"' :: '"' :: ds) :
    blockBody (c :: cs) = blockChar c ++ blockBody cs := by
  rw [blockBody]
  rintro ds rfl rfl
  exact apart ds rfl

/-- Fewer quotes stand as they are. -/
theorem blockBody_few {n : Nat} {c : Char} (bound : n ≤ 2) (other : c ≠ '"') (cs : List Char) :
    blockBody (quotes n ++ c :: cs) = quotes n ++ (blockChar c ++ blockBody cs) := by
  have single : blockBody (c :: cs) = blockChar c ++ blockBody cs :=
    blockBody_cons fun ds same => other (List.cons.inj same).1
  have double : blockBody ('"' :: c :: cs) = '"' :: blockBody (c :: cs) :=
    blockBody_cons fun ds same => other (List.cons.inj (List.cons.inj same).2).1
  have triple : blockBody ('"' :: '"' :: c :: cs) = '"' :: blockBody ('"' :: c :: cs) :=
    blockBody_cons fun ds same => by simp [other] at same
  match n with
  | 0 => exact single
  | 1 => exact double.trans (congrArg _ single)
  | 2 => exact triple.trans (congrArg _ (double.trans (congrArg _ single)))

/-- A text that leaves no quote over is written apart from what follows. -/
theorem blockBody_append {cs : List Char} (unquoted : Unquoted cs) (ds : List Char) :
    blockBody (cs ++ ds) = blockBody cs ++ blockBody ds := by
  induction unquoted with
  | nil => rfl
  | triple _ ih => rw [List.append_assoc, blockBody_triple, blockBody_triple, ih, List.append_assoc]
  | few bound other _ ih =>
    rw [List.append_assoc, List.cons_append, blockBody_few bound other, blockBody_few bound other,
      ih, List.append_assoc, List.append_assoc]

theorem spelled_quotes (n : Nat) : Spelled (quotes n) (quotes n) := by
  induction n with
  | zero => exact .nil
  | succ n ih => exact .cons (.self (by decide)) ih

theorem spelled_escapedQuotes : Spelled (quotes 3) escapedQuotes := by
  have quote : Spells '"' ['\\', '"'] := .escape rfl
  exact .cons quote (.cons quote quote.spelled)

/-- It then reads back as it is. -/
theorem spelled_blockBody {cs : List Char} (unquoted : Unquoted cs) :
    Spelled cs (blockBody cs) := by
  induction unquoted with
  | nil => exact .nil
  | triple _ ih => exact spelled_escapedQuotes.append ih
  | few bound other _ ih =>
    rw [blockBody_few bound other]
    exact (spelled_quotes _).append (.cons (spells_blockChar _) ih)

/-- Up to two quotes do not end a block. -/
theorem stringRun_few {n : Nat} (bound : n ≤ 2) (body rest : List Char) :
    stringRun '"' true 0 body (quotes n ++ rest) =
      stringRun '"' true n (quotes n ++ body) rest := by
  match n with
  | 0 => rfl
  | 1 => exact stringRun_quote body rest (by decide)
  | 2 =>
    have first : stringRun '"' true 0 body ('"' :: '"' :: rest) =
        stringRun '"' true 1 ('"' :: body) ('"' :: rest) := stringRun_quote _ _ (by decide)
    exact first.trans (stringRun_quote _ rest (by decide))

/-- The body of a block literal is passed up to where its text ends in quotes. -/
theorem stringRun_blockBody {cs : List Char} (unquoted : Unquoted cs) (body rest : List Char) :
    stringRun '"' true 0 body (blockBody cs ++ rest) =
      stringRun '"' true 0 ((blockBody cs).reverse ++ body) rest := by
  induction unquoted generalizing body with
  | nil => rfl
  | triple _ ih =>
    have passes : Passes true escapedQuotes :=
      (passes_escape true '"').append ((passes_escape true '"').append (passes_escape true '"'))
    rw [blockBody_triple, List.append_assoc, passes, ih, List.reverse_append, List.append_assoc]
  | few bound other _ ih =>
    rw [blockBody_few bound other, List.append_assoc, List.append_assoc, stringRun_few bound,
      passes_blockChar other, ih]
    simp [quotes]

/-! ### Quotes at the end -/

/-- How many quotes a text ends in. -/
def endQuotes (cs : List Char) : Nat := (cs.reverse.takeWhile (· = '"')).length

theorem quotes_add (n m : Nat) : quotes (n + m) = quotes n ++ quotes m :=
  List.replicate_append_replicate.symm

/-- A text is what stands before its last quotes, and those. -/
theorem exists_endQuotes (cs : List Char) :
    ∃ as, as.getLast? ≠ some '"' ∧ cs = as ++ quotes (endQuotes cs) := by
  induction cs using List.reverseRecOn with
  | nil => exact ⟨[], by simp, rfl⟩
  | append_singleton cs c ih =>
    by_cases quote : c = '"'
    · obtain ⟨as, last, same⟩ := ih
      have more : endQuotes (cs ++ [c]) = endQuotes cs + 1 := by simp [endQuotes, quote]
      refine ⟨as, last, ?_⟩
      rw [more, quotes_add, ← List.append_assoc, ← same, quote]
      rfl
    · have none : endQuotes (cs ++ [c]) = 0 := by simp [endQuotes, quote]
      exact ⟨cs ++ [c], by simpa using quote, by rw [none]; exact (List.append_nil _).symm⟩

theorem Unquoted.append {cs ds : List Char} (first : Unquoted cs) (rest : Unquoted ds) :
    Unquoted (cs ++ ds) := by
  induction first with
  | nil => exact rest
  | triple _ ih =>
    rw [List.append_assoc]
    exact .triple ih
  | few bound other _ ih =>
    rw [List.append_assoc, List.cons_append]
    exact .few bound other ih

theorem unquoted_quotes (n : Nat) : Unquoted (quotes (3 * n)) := by
  induction n with
  | zero => exact .nil
  | succ n ih =>
    rw [Nat.mul_succ, Nat.add_comm, quotes_add]
    exact .triple ih

/-- A text taken apart as it is written, up to the quotes that are left. -/
theorem exists_unquoted (cs : List Char) :
    ∃ as, Unquoted as ∧ cs = as ++ quotes (endQuotes cs % 3) := by
  obtain ⟨as, last, same⟩ := exists_endQuotes cs
  have split : quotes (endQuotes cs) =
      quotes (3 * (endQuotes cs / 3)) ++ quotes (endQuotes cs % 3) := by
    rw [← quotes_add, Nat.div_add_mod]
  refine ⟨as ++ quotes (3 * (endQuotes cs / 3)),
    (unquoted_of_getLast? as last).append (unquoted_quotes _), ?_⟩
  rw [List.append_assoc, ← split, ← same]

/-- The last quote gets a backslash. -/
theorem guardEnd_quote (ws : List Char) : guardEnd (ws ++ ['"']) = ws ++ ['\\', '"'] := by
  simp [guardEnd]

theorem getLast?_blockChar {c : Char} (other : c ≠ '"') :
    ∃ d, d ≠ '"' ∧ (blockChar c).getLast? = some d := by
  have digit : ∀ d ∈ hexAlphabet, d ≠ '"' := by simp [hexAlphabet]
  unfold blockChar
  split
  · exact ⟨'\\', by decide, rfl⟩
  · exact ⟨'r', by decide, rfl⟩
  · split
    · exact ⟨_, digit _ (hexDigit_mem _), rfl⟩
    · exact ⟨c, other, rfl⟩

/-- Nothing is to be guarded where the text does not end in a quote. -/
theorem guardEnd_blockBody {cs : List Char} (last : cs.getLast? ≠ some '"') :
    guardEnd (blockBody cs) = blockBody cs := by
  rcases List.eq_nil_or_concat cs with rfl | ⟨bs, c, rfl⟩
  · rfl
  · have other : c ≠ '"' := by simpa using last
    obtain ⟨as, unquoted, same⟩ := exists_unquoted bs
    obtain ⟨d, plain, ends⟩ := getLast?_blockChar other
    have few : endQuotes bs % 3 ≤ 2 := by omega
    have written : blockBody (bs ++ [c]) =
        (blockBody as ++ quotes (endQuotes bs % 3)) ++ blockChar c := by
      rw [same, List.append_assoc, blockBody_append unquoted, ← same, blockBody_few few other]
      simp [blockBody]
    rw [guardEnd, if_neg]
    simp [written, List.getLast?_append, ends, plain]

/-- A block literal whose text does not end in quotes, or leaves some when taken by threes. -/
theorem string?_block [CharNames] {cs : List Char} (whole : endQuotes cs = 0 ∨ endQuotes cs % 3 ≠ 0)
    (rest : List Char) :
    string? {} (blockChars cs ++ rest) = some (.text (cs.map Char.toNat), rest) := by
  by_cases none : endQuotes cs % 3 = 0
  · have unended : endQuotes cs = 0 := whole.resolve_right (absurd none)
    obtain ⟨as, last, same⟩ := exists_endQuotes cs
    obtain rfl : cs = as := by rw [same, unended]; exact List.append_nil _
    have unquoted := unquoted_of_getLast? cs last
    have closes : stringRun '"' true 0 [] (blockBody cs ++ ('"' :: '"' :: '"' :: rest)) =
        some (blockBody cs, rest) := by
      rw [stringRun_blockBody unquoted, stringRun_quotes]
      simp
    rw [← string?_long (spelled_blockBody unquoted) closes, blockChars, guardEnd_blockBody last]
    simp
  · obtain ⟨bs, unquoted, same⟩ := exists_unquoted cs
    obtain ⟨n, few, count⟩ : ∃ n, n ≤ 1 ∧ endQuotes cs % 3 = n + 1 :=
      ⟨endQuotes cs % 3 - 1, by omega, by omega⟩
    rw [count, quotes_add] at same
    have body : guardEnd (blockBody cs) = blockBody bs ++ (quotes n ++ ['\\', '"']) := by
      have left : blockBody (quotes n ++ quotes 1) = quotes n ++ ['"'] := by
        match n with
        | 0 => rfl
        | 1 => rfl
      rw [same, blockBody_append unquoted, left, ← List.append_assoc, guardEnd_quote,
        List.append_assoc]
    have spelled : Spelled cs (blockBody bs ++ (quotes n ++ ['\\', '"'])) := by
      have quote : Spells '"' ['\\', '"'] := .escape rfl
      rw [same]
      exact (spelled_blockBody unquoted).append ((spelled_quotes n).append quote.spelled)
    have closes : stringRun '"' true 0 [] (blockBody bs ++ (quotes n ++
        ('\\' :: '"' :: '"' :: '"' :: '"' :: rest))) =
        some (blockBody bs ++ (quotes n ++ ['\\', '"']), rest) := by
      rw [stringRun_blockBody unquoted, stringRun_few (by omega), stringRun_escape,
        stringRun_quotes]
      simp [quotes]
    rw [← string?_long spelled closes, blockChars, body]
    simp

/-- Otherwise the guard escapes the backslash of the last quote, and the literal ends there. -/
theorem string?_block_early [CharNames] {cs : List Char} (some : 0 < endQuotes cs)
    (none : endQuotes cs % 3 = 0) (rest : List Char) :
    string? {} (blockChars cs ++ rest) =
      .some (.text ((cs.dropLast ++ ['\\']).map Char.toNat), '"' :: rest) := by
  obtain ⟨as, last, same⟩ := exists_endQuotes cs
  obtain ⟨n, count⟩ : ∃ n, endQuotes cs = 3 * n + 3 := ⟨endQuotes cs / 3 - 1, by omega⟩
  obtain ⟨bs, unquoted, rfl⟩ : ∃ bs, Unquoted bs ∧ cs = bs ++ quotes 3 := by
    refine ⟨as ++ quotes (3 * n), (unquoted_of_getLast? as last).append (unquoted_quotes n), ?_⟩
    rw [List.append_assoc, ← quotes_add, ← count, ← same]
  have body : guardEnd (blockBody (bs ++ quotes 3)) =
      blockBody bs ++ ['\\', '"', '\\', '"', '\\', '\\', '"'] := by
    have written : blockBody (bs ++ quotes 3) =
        (blockBody bs ++ ['\\', '"', '\\', '"', '\\']) ++ ['"'] := by
      rw [blockBody_append unquoted, List.append_assoc]
      rfl
    rw [written, guardEnd_quote, List.append_assoc]
    rfl
  have spelled : Spelled (bs ++ ['"', '"', '\\'])
      (blockBody bs ++ ['\\', '"', '\\', '"', '\\', '\\']) := by
    have quote : Spells '"' ['\\', '"'] := .escape rfl
    have backslash : Spells '\\' ['\\', '\\'] := .escape rfl
    exact (spelled_blockBody unquoted).append (.cons quote (.cons quote backslash.spelled))
  have closes : stringRun '"' true 0 [] (blockBody bs ++
      ('\\' :: '"' :: '\\' :: '"' :: '\\' :: '\\' :: '"' :: '"' :: '"' :: '"' :: rest)) =
      .some (blockBody bs ++ ['\\', '"', '\\', '"', '\\', '\\'], '"' :: rest) := by
    rw [stringRun_blockBody unquoted, stringRun_escape, stringRun_escape, stringRun_escape,
      stringRun_quotes]
    simp
  have text : (bs ++ quotes 3).dropLast ++ ['\\'] = bs ++ ['"', '"', '\\'] := by
    have split : bs ++ quotes 3 = (bs ++ ['"', '"']) ++ ['"'] := by simp [quotes]
    rw [split, List.dropLast_concat, List.append_assoc]
    rfl
  have read := string?_long spelled closes
  rw [text, ← read, blockChars, body]
  simp

/-! ## String literals -/

/-- A quoted text does not open a block. -/
theorem escapeChars_ne {cs rest more : List Char} (ends : rest.head? ≠ some '"') :
    escapeChars cs ++ '"' :: rest ≠ '"' :: '"' :: more := by
  cases cs with
  | nil =>
    intro same
    obtain rfl := (List.cons.inj same).2
    exact ends rfl
  | cons c cs =>
    have first : ∃ d ws, escapeChar c = d :: ws ∧ d ≠ '"' := by
      unfold escapeChar
      split
      case h_6 _ quote _ _ _ =>
        split
        · exact ⟨_, _, rfl, by decide⟩
        · exact ⟨_, _, rfl, quote⟩
      all_goals exact ⟨_, _, rfl, by decide⟩
    obtain ⟨d, ws, written, plain⟩ := first
    intro same
    rw [escapeChars, List.flatMap_cons, written] at same
    exact plain (List.cons.inj same).1

/-- An empty literal is only told from the start of a long one if no quote follows. -/
theorem string?_string [CharNames] (cs : List Char) {rest : List Char}
    (ends : rest.head? ≠ some '"') :
    string? {} (stringChars cs ++ rest) = some (.text (cs.map Char.toNat), rest) := by
  have spelled : Spelled cs (escapeChars cs) := .flatMap fun c _ => spells_escapeChar c
  have closes : stringRun '"' false 0 [] (escapeChars cs ++ '"' :: rest) =
      some (escapeChars cs, rest) := by
    rw [escapeChars, stringRun_flatMap fun c _ => passes_escapeChar c, stringRun_close]
    simp
  rw [← string?_short spelled closes fun more => escapeChars_ne ends, stringChars]
  simp

/-! ## Characters that show -/

/-- No control of ASCII. -/
def Visible (c : Char) : Prop := 0x20 ≤ c.toNat ∧ c.toNat ≠ 0x7f

instance : DecidablePred Visible := fun _ => inferInstanceAs (Decidable (_ ∧ _))

theorem visible_of_not_isControl {c : Char} (plain : ¬isControl c) :
    Visible c ∨ c = '\t' ∨ c = '\n' ∨ c = '\r' := by
  have same (d : Char) : c = d ↔ c.toNat = d.toNat := Char.toNat_inj.symm
  have tab : '\t'.toNat = 9 := rfl
  have feed : '\n'.toNat = 10 := rfl
  have back : '\r'.toNat = 13 := rfl
  simp only [isControl, Bool.or_eq_true, Bool.and_eq_true, decide_eq_true_eq, beq_iff_eq] at plain
  simp only [same, tab, feed, back, Visible]
  omega

theorem visible_controlChars (c : Char) : ∀ d ∈ controlChars c, Visible d := by
  have digits : ∀ d ∈ hexAlphabet, Visible d := by simp [hexAlphabet, Visible]
  intro d member
  simp only [controlChars, Text.hexDigits, List.nil_append, List.cons_append, List.mem_cons,
    List.not_mem_nil, or_false] at member
  obtain rfl | rfl | rfl | rfl := member
  · decide
  · decide
  · exact digits _ (hexDigit_mem _)
  · exact digits _ (hexDigit_mem _)

theorem visible_plainChar {c d : Char} (member : d ∈ plainChar c) :
    Visible d ∨ d = c ∧ (c = '\t' ∨ c = '\n' ∨ c = '\r') := by
  unfold plainChar at member
  split at member
  case isTrue => exact .inl (visible_controlChars c d member)
  case isFalse plain =>
    obtain rfl := List.mem_singleton.mp member
    exact (visible_of_not_isControl plain).imp_right fun kept => ⟨rfl, kept⟩

theorem visible_plainChar_of_ne {c d : Char} (tab : c ≠ '\t') (feed : c ≠ '\n') (back : c ≠ '\r')
    (member : d ∈ plainChar c) : Visible d := by
  obtain shown | ⟨-, rfl | rfl | rfl⟩ := visible_plainChar member
  · exact shown
  · exact absurd rfl tab
  · exact absurd rfl feed
  · exact absurd rfl back

theorem visible_escape {e d : Char} (shown : Visible e) (member : d ∈ ['\\', e]) : Visible d := by
  simp only [List.mem_cons, List.not_mem_nil, or_false] at member
  obtain rfl | rfl := member
  · decide
  · exact shown

theorem visible_escapeChar (c : Char) : ∀ d ∈ escapeChar c, Visible d := by
  intro d member
  unfold escapeChar at member
  split at member
  case h_6 back feed tab => exact visible_plainChar_of_ne tab feed back member
  all_goals exact visible_escape (by decide) member

/-- A quoted text shows on one line. -/
theorem visible_stringChars (cs : List Char) : ∀ d ∈ stringChars cs, Visible d := by
  intro d member
  simp only [stringChars, escapeChars, List.cons_append, List.mem_cons, List.mem_append,
    List.mem_flatMap, List.not_mem_nil, or_false] at member
  obtain rfl | ⟨c, -, written⟩ | rfl := member
  · decide
  · exact visible_escapeChar c d written
  · decide

/-- What may stand in a block literal as it is. -/
def VisibleOrSpacing (c : Char) : Prop := Visible c ∨ c = '\t' ∨ c = '\n'

theorem shown_blockChar (c : Char) : ∀ d ∈ blockChar c, VisibleOrSpacing d := by
  intro d member
  unfold blockChar at member
  split at member
  case h_3 back =>
    obtain shown | ⟨rfl, rfl | rfl | rfl⟩ := visible_plainChar member
    · exact .inl shown
    · exact .inr (.inl rfl)
    · exact .inr (.inr rfl)
    · exact absurd rfl back
  all_goals exact .inl (visible_escape (by decide) member)

theorem shown_blockBody (cs : List Char) : ∀ d ∈ blockBody cs, VisibleOrSpacing d := by
  have escaped : ∀ d ∈ escapedQuotes, VisibleOrSpacing d := by
    simp [escapedQuotes, VisibleOrSpacing, Visible]
  fun_induction blockBody cs with
  | case1 => exact nofun
  | case2 cs ih =>
    intro d member
    have parts : d ∈ escapedQuotes ++ blockBody cs := member
    exact (List.mem_append.mp parts).elim (escaped d) (ih d)
  | case3 c cs apart ih =>
    intro d member
    exact (List.mem_append.mp member).elim (shown_blockChar c d) (ih d)

/-- A block has tabs and line breaks besides. -/
theorem shown_blockChars (cs : List Char) : ∀ d ∈ blockChars cs, VisibleOrSpacing d := by
  have guard : ∀ d ∈ ['\\', '"'], VisibleOrSpacing d := by simp [VisibleOrSpacing, Visible]
  have guarded : ∀ d ∈ guardEnd (blockBody cs), VisibleOrSpacing d := by
    intro d member
    unfold guardEnd at member
    split at member
    · exact (List.mem_append.mp member).elim
        (fun first => shown_blockBody cs d (List.dropLast_subset _ first)) (guard d)
    · exact shown_blockBody cs d member
  have ends : ∀ d ∈ ['"', '"', '"'], VisibleOrSpacing d := by simp [VisibleOrSpacing, Visible]
  intro d member
  simp only [blockChars, List.mem_append] at member
  obtain (start | body) | stop := member
  · exact ends d start
  · exact guarded d body
  · exact ends d stop

end Dialogue.Script
