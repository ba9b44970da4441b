import Dialogue.Text.Blank
import Mathlib.Data.List.DropRight

/-!
# Stripped texts

What is stripped off the ends of a text stands at neither end any more, and a text with nothing to
strip is left as it is. The visible characters of ASCII are no blanks.
-/

namespace Dialogue.Text

theorem not_isBlank_of_ascii {c : Char} (low : 0x21 ≤ c.toNat) (high : c.toNat ≤ 0x7e) :
    isBlank c = false := by
  simp only [isBlank, Bool.or_eq_false_iff, Bool.and_eq_false_iff, beq_eq_false_iff_ne,
    decide_eq_false_iff_not]
  omega

variable {α : Type} {p : α → Bool} {cs : List α} {c : α}

theorem stripWhile_eq (p : α → Bool) (cs : List α) :
    stripWhile p cs = (cs.dropWhile p).rdropWhile p := rfl

theorem isPrefix_stripWhile (p : α → Bool) (cs : List α) :
    stripWhile p cs <+: cs.dropWhile p :=
  List.rdropWhile_prefix p _

theorem isInfix_stripWhile (p : α → Bool) (cs : List α) : stripWhile p cs <:+: cs := by
  apply List.IsInfix.trans
  · exact (isPrefix_stripWhile p cs).isInfix
  · exact (List.dropWhile_suffix p).isInfix

/-- What begins a stripped text begins the text without what was stripped in front. -/
theorem head?_stripWhile (first : (stripWhile p cs).head? = some c) : p c = false := by
  obtain ⟨rest, same⟩ := isPrefix_stripWhile p cs
  have start : (cs.dropWhile p).head? = some c := by
    rw [← same, List.head?_append, first]
    rfl
  have other := List.head?_dropWhile_not p cs
  rwa [start] at other

theorem getLast?_stripWhile (last : (stripWhile p cs).getLast? = some c) : p c = false := by
  rw [stripWhile, List.getLast?_reverse] at last
  have other := List.head?_dropWhile_not p (cs.dropWhile p).reverse
  rwa [last] at other

/-- What neither starts nor ends by such a character stays. -/
theorem stripWhile_eq_self (first : ∀ c, cs.head? = some c → p c = false)
    (last : ∀ c, cs.getLast? = some c → p c = false) : stripWhile p cs = cs := by
  have front : cs.dropWhile p = cs := by
    cases cs with
    | nil => rfl
    | cons c cs => simp [first c rfl]
  rw [stripWhile_eq, front, List.rdropWhile_eq_self_iff]
  intro some
  simp [last _ (List.getLast?_eq_some_getLast some)]

end Dialogue.Text
