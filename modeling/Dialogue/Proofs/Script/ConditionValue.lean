import Dialogue.Proofs.Literal.Notation
import Dialogue.Proofs.Script.Display
import Dialogue.Proofs.Script.Form

/-!
# Values of conditions

A condition holds its value as text. What the module compares with is the notation of the literal
that the text is, as long as this notation reads back as an equal one, and otherwise the text itself
in quotes. Either is a single line.
-/

namespace Dialogue.Script

open Literal (CharNames OneLine)

/-- The text is a literal, and the notation of that reads back as an equal one. -/
structure Settles [CharNames] (s : String) (l m : Literal) : Prop where
  read : Literal.read (Text.strip s.toList) = .ok l
  reread : Literal.read l.chars = .ok m
  alike : l.alike m

/-- A text in a module stands for the value of a condition. -/
structure Embeds [CharNames] (s v : String) : Prop where
  oneLine : OneLine v.toList
  /-- It is an expression made of literals. -/
  isLiteral : ∃ l, Literal.read v.toList = .ok l
  /-- It is the notation of the value that the text settles, and reads as an equal one. -/
  settled : ∀ l m, Settles s l m → v.toList = l.chars ∧ Literal.read v.toList = .ok m
  /-- It is the text itself where that settles no value. -/
  unsettled : (¬∃ l m, Settles s l m) → Literal.read v.toList = .ok (.ofText s)

/-- A quoted text reads as the text. -/
theorem read_string [CharNames] (s : String) : Literal.read (string s).toList = .ok (.ofText s) := by
  have denotes : Literal.Denotes 0 _ _ := denotes_text s
  have plain : Literal.Plain (string s).toList := plain_of_visible (visible_choice (.text s))
  rw [string, String.toList_ofList, stringChars, List.cons_append] at denotes plain ⊢
  exact Literal.read_of_denotes denotes (by decide) plain

/-- The notation is given for just the texts that settle a value. -/
theorem literal?_eq_some [CharNames] {s : String} {cs : List Char} :
    literal? (Text.strip s.toList) = .ok (some cs) ↔ ∃ l m, Settles s l m ∧ cs = l.chars := by
  constructor
  · intro found
    unfold literal? at found
    cases read : Literal.read (Text.strip s.toList) with
    | error fault => cases fault <;> simp [read] at found
    | ok l =>
      cases reread : Literal.read l.chars with
      | error fault => simp [read, reread] at found
      | ok m =>
        simp only [read, reread, Except.ok.injEq, ite_eq_iff] at found
        simp at found
        exact ⟨l, m, ⟨read, reread, found.1⟩, found.2.symm⟩
  · rintro ⟨l, m, ⟨read, reread, alike⟩, rfl⟩
    simp [literal?, read, reread, alike]

/-- What is written for a test is what the text stands for. -/
theorem embeds_conditionValue [CharNames] {s v : String} (written : conditionValue s = .ok v) :
    Embeds s v := by
  unfold conditionValue at written
  split at written
  case h_1 cs found =>
    obtain ⟨l, m, settles, rfl⟩ := literal?_eq_some.1 found
    obtain rfl := Except.ok.inj written
    refine ⟨?_, ⟨m, ?_⟩, fun l' m' settles' => ?_, fun none => absurd ⟨l, m, settles⟩ none⟩
    · rw [String.toList_ofList]
      exact Literal.oneLine_chars l
    · rw [String.toList_ofList]
      exact settles.reread
    · obtain rfl : l = l' := Except.ok.inj (settles.read.symm.trans settles'.read)
      rw [String.toList_ofList]
      exact ⟨rfl, settles'.reread⟩
  case h_2 found =>
    obtain rfl := Except.ok.inj written
    have none : ¬∃ l m, Settles s l m := by
      rintro ⟨l, m, settles⟩
      rw [literal?_eq_some.2 ⟨l, m, settles, rfl⟩] at found
      cases found
    refine ⟨?_, ⟨_, read_string s⟩, fun l m settles => absurd ⟨l, m, settles⟩ none,
      fun _ => read_string s⟩
    exact Literal.oneLine_of_visible (visible_choice (.text s))
  case h_3 => cases written

end Dialogue.Script
