import Dialogue.Literal.Writer
import Dialogue.Proofs.Literal.Numbers

/-!
# Notations are single lines

Whatever literal there is, no character of its notation ends a line: in texts and bytes these are
escaped, and everything else is made of digits, names and marks.
-/

namespace Dialogue.Literal

/-- No character of the text ends a line. -/
def OneLine (cs : List Char) : Prop := ∀ c ∈ cs, c ≠ '\n' ∧ c ≠ '\r'

section

variable {c : Char} {cs ds : List Char}

/-- Visible characters end no line. -/
theorem oneLine_of_visible (shown : ∀ c ∈ cs, Script.Visible c) : OneLine cs := by
  intro c member
  constructor <;> rintro rfl <;> exact absurd (shown _ member) (by decide)

theorem oneLine_nil : OneLine [] := List.forall_mem_nil _

theorem oneLine_cons : OneLine (c :: cs) ↔ (c ≠ '\n' ∧ c ≠ '\r') ∧ OneLine cs :=
  List.forall_mem_cons

theorem oneLine_append : OneLine (cs ++ ds) ↔ OneLine cs ∧ OneLine ds := List.forall_mem_append

/-- Nor do pieces joined by commas. -/
theorem oneLine_separated {css : List (List Char)} (each : ∀ cs ∈ css, OneLine cs) :
    OneLine (separated css) := by
  fun_induction separated css with
  | case1 => exact oneLine_nil
  | case2 cs => exact each cs (.head _)
  | case3 cs css other ih =>
    rw [List.forall_mem_cons] at each
    rw [oneLine_append, oneLine_cons, oneLine_cons]
    exact ⟨each.1, by decide, by decide, ih each.2⟩

/-- Items between two marks. -/
theorem oneLine_enclosed {c d : Char} (marks : OneLine [c, d]) (inner : OneLine cs) :
    OneLine (c :: cs ++ [d]) := by
  rw [oneLine_cons] at marks
  rw [List.cons_append, oneLine_cons, oneLine_append]
  exact ⟨marks.1, inner, marks.2⟩

end

/-! ## Numbers -/

/-- A part of a complex number is written on one line. -/
theorem oneLine_part (x : Float) : OneLine (partChars x) := by
  have whole : OneLine (Number.floatChars Number.plainNames x) :=
    oneLine_of_visible (visible_floatChars x)
  unfold partChars
  dsimp only
  split
  · exact fun c member => whole c (List.mem_of_mem_take member)
  · exact whole

theorem oneLine_complex (z : Complex) : OneLine (complexChars z) := by
  have im : OneLine (partChars z.im ++ ['j']) :=
    oneLine_append.2 ⟨oneLine_part z.im, by simp [OneLine]⟩
  unfold complexChars
  dsimp only
  split
  · exact im
  · have sign : OneLine (if (partChars z.im ++ ['j']).head? = some '-' then [] else ['+']) := by
      split <;> simp [OneLine]
    simp only [List.cons_append, oneLine_cons, oneLine_append] at im ⊢
    exact ⟨by decide, ⟨⟨oneLine_part z.re, sign⟩, im⟩, by decide, oneLine_nil⟩

/-! ## Texts and bytes -/

theorem ofNat_ne {n : Nat} (feed : n ≠ 10) (back : n ≠ 13) :
    Char.ofNat n ≠ '\n' ∧ Char.ofNat n ≠ '\r' := by
  have code : (Char.ofNat n).toNat = n ∨ (Char.ofNat n).toNat = 0 := by
    unfold Char.ofNat
    split
    · exact .inl rfl
    · exact .inr rfl
  constructor <;> intro same <;> rw [same] at code
  · exact code.elim (fun value => feed value.symm) (by decide)
  · exact code.elim (fun value => back value.symm) (by decide)

theorem oneLine_hexDigits (width n : Nat) : OneLine (Text.hexDigits width n) := by
  have digits : OneLine hexAlphabet := by simp [OneLine, hexAlphabet]
  induction width generalizing n with
  | zero => exact oneLine_nil
  | succ width ih =>
    rw [Text.hexDigits, oneLine_append, oneLine_cons]
    exact ⟨ih (n / 16), digits _ (hexDigit_mem _), oneLine_nil⟩

/-- So is every code between quotes. -/
theorem oneLine_quoteCode {quote : Char} (kind : quote = '"' ∨ quote = '\'') (n : Nat) :
    OneLine (Text.quoteCode quote n) := by
  have hex (mark : Char) (plain : mark ≠ '\n' ∧ mark ≠ '\r') (width : Nat) :
      OneLine ('\\' :: mark :: Text.hexDigits width n) := by
    rw [oneLine_cons, oneLine_cons]
    exact ⟨by decide, plain, oneLine_hexDigits width n⟩
  unfold Text.quoteCode
  split
  case isTrue escaped =>
    have other : n ≠ 10 ∧ n ≠ 13 := by
      obtain rfl | rfl := kind <;> obtain rfl | rfl := escaped <;> decide
    rw [oneLine_cons, oneLine_cons]
    exact ⟨by decide, ofNat_ne other.1 other.2, oneLine_nil⟩
  case isFalse =>
    split
    case isTrue => simp [OneLine]
    case isFalse =>
      split
      case isTrue => simp [OneLine]
      case isFalse feed =>
        split
        case isTrue => simp [OneLine]
        case isFalse back =>
          split
          · rw [oneLine_cons]
            exact ⟨ofNat_ne feed back, oneLine_nil⟩
          · split
            · exact hex 'x' (by decide) 2
            · split
              · exact hex 'u' (by decide) 4
              · exact hex 'U' (by decide) 8

theorem quoteFor_eq (codes : List Nat) :
    Text.quoteFor codes = '"' ∨ Text.quoteFor codes = '\'' := by
  unfold Text.quoteFor
  split
  · exact .inl rfl
  · exact .inr rfl

theorem oneLine_quotes {quote : Char} (kind : quote = '"' ∨ quote = '\'') {cs : List Char}
    (inner : OneLine cs) : OneLine (quote :: cs ++ [quote]) := by
  refine oneLine_enclosed ?_ inner
  obtain rfl | rfl := kind <;> simp [OneLine]

/-- And so is every text. -/
theorem oneLine_quoteCodes (codes : List Nat) : OneLine (Text.quoteCodes codes) := by
  have kind := quoteFor_eq codes
  refine oneLine_quotes kind fun c member => ?_
  obtain ⟨n, -, there⟩ := List.mem_flatMap.1 member
  exact oneLine_quoteCode kind n c there

theorem oneLine_bytesChars (bs : List Nat) : OneLine (bytesChars bs) := by
  have kind := quoteFor_eq bs
  have body : OneLine (bs.flatMap (byteChars (Text.quoteFor bs))) := by
    intro c member
    obtain ⟨b, -, there⟩ := List.mem_flatMap.1 member
    unfold byteChars at there
    split at there
    · exact oneLine_quoteCode kind b c there
    · have hex : OneLine ('\\' :: 'x' :: Text.hexDigits 2 b) := by
        rw [oneLine_cons, oneLine_cons]
        exact ⟨by decide, by decide, oneLine_hexDigits 2 b⟩
      exact hex c there
  exact oneLine_cons.2 ⟨by decide, oneLine_quotes kind body⟩

/-! ## Literals -/

mutual

/-- One case for each kind of literal; containers enclose the notations of what they hold. -/
theorem oneLine_chars : ∀ l : Literal, OneLine l.chars
  | .null => by simp [chars, OneLine]
  | .bool b => by cases b <;> simp [chars, OneLine]
  | .int n => by
    rw [chars]
    exact oneLine_of_visible (visible_intChars n)
  | .float x => by
    rw [chars]
    exact oneLine_of_visible (visible_floatChars x)
  | .complex z => by
    rw [chars]
    exact oneLine_complex z
  | .text codes => by
    rw [chars]
    exact oneLine_quoteCodes codes
  | .bytes bs => by
    rw [chars]
    exact oneLine_bytesChars bs
  | .list xs => by
    rw [chars]
    exact oneLine_enclosed (by simp [OneLine]) (oneLine_separated (oneLine_items xs))
  | .tuple [] => by simp [chars, OneLine]
  | .tuple [x] => by
    rw [chars, List.cons_append, oneLine_cons, oneLine_append]
    exact ⟨by decide, oneLine_chars x, by simp [OneLine]⟩
  | .tuple (x :: y :: xs) => by
    rw [chars]
    · exact oneLine_enclosed (by simp [OneLine]) (oneLine_separated (oneLine_items (x :: y :: xs)))
    all_goals simp
  | .set [] => by simp [chars, OneLine]
  | .set (x :: xs) => by
    rw [chars]
    · exact oneLine_enclosed (by simp [OneLine]) (oneLine_separated (oneLine_items (x :: xs)))
    · simp
  | .dict es => by
    rw [chars]
    exact oneLine_enclosed (by simp [OneLine]) (oneLine_separated (oneLine_entries es))

theorem oneLine_items : ∀ (xs : List Literal), ∀ cs ∈ itemChars xs, OneLine cs
  | [] => by simp [itemChars]
  | x :: xs => by
    rw [itemChars, List.forall_mem_cons]
    exact ⟨oneLine_chars x, oneLine_items xs⟩

theorem oneLine_entries : ∀ (es : List (Literal × Literal)), ∀ cs ∈ entryChars es, OneLine cs
  | [] => by simp [entryChars]
  | (k, x) :: es => by
    rw [entryChars, List.forall_mem_cons, oneLine_append, oneLine_cons, oneLine_cons]
    exact ⟨⟨oneLine_chars k, by decide, by decide, oneLine_chars x⟩, oneLine_entries es⟩

end

end Dialogue.Literal
