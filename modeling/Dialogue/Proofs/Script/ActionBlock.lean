import Mathlib
import Dialogue.Proofs.Text.Strip
import Dialogue.Script.Handler

/-!
# The action of a decision in its handler

The lines of an action stand in the handler behind its margin. They are those of the action as far
as its lines end in line feeds and carriage returns. What else ends a line of a text is lost,
wherever it stands in the action.
-/

namespace Dialogue

namespace Text

/-! ## Lines put together -/

/-- Every line break written as a line feed. -/
def feedBreaks : List Char → List Char
  | [] => []
  | '\r' :: '\n' :: cs => '\n' :: feedBreaks cs
  | c :: cs => (if isLineBreak c then '\n' else c) :: feedBreaks cs

/-- The line feed that ends the last line, if a line break ends it. -/
def finalFeed (cs : List Char) : List Char :=
  if cs.getLast?.any isLineBreak then ['\n'] else []

theorem linesFrom_eq_nil {line cs : List Char} : linesFrom line cs = [] ↔ line = [] ∧ cs = [] := by
  fun_induction linesFrom line cs <;> simp_all

theorem joinFeed_cons {ls : List (List Char)} (more : ls ≠ []) (l : List Char) :
    joinFeed (l :: ls) = l ++ '\n' :: joinFeed ls := by
  cases ls with
  | nil => exact absurd rfl more
  | cons m ls => rfl

/-- A line that is ended goes before the lines that follow, if any do. -/
theorem joinFeed_ended {b : Char} (ends : isLineBreak b) (l cs : List Char) :
    joinFeed (l :: linesFrom [] cs) ++ finalFeed (b :: cs) =
      l ++ '\n' :: (joinFeed (linesFrom [] cs) ++ finalFeed cs) := by
  cases cs with
  | nil => simp [linesFrom, joinFeed, finalFeed, ends]
  | cons c cs =>
    have more : linesFrom [] (c :: cs) ≠ [] := by simp [linesFrom_eq_nil]
    have last : finalFeed (b :: c :: cs) = finalFeed (c :: cs) := by
      rw [finalFeed, finalFeed, List.getLast?_cons_cons]
    rw [joinFeed_cons more, last, List.append_assoc, List.cons_append]

/-- Only the kind of a line break is lost in a cut, and joining puts line feeds. -/
theorem joinFeed_linesFrom (line cs : List Char) :
    joinFeed (linesFrom line cs) ++ finalFeed cs = line.reverse ++ feedBreaks cs := by
  have feed : isLineBreak '\n' := by decide
  fun_induction linesFrom line cs with
  | case1 line none => simp_all [joinFeed, finalFeed, feedBreaks]
  | case2 line some => simp [joinFeed, finalFeed, feedBreaks]
  | case3 line cs ih =>
    have last : finalFeed ('\r' :: '\n' :: cs) = finalFeed ('\n' :: cs) := by
      rw [finalFeed, finalFeed, List.getLast?_cons_cons]
    rw [last, joinFeed_ended feed, ih]
    rfl
  | case4 line c cs other ends ih =>
    rw [joinFeed_ended ends, ih, feedBreaks, if_pos ends]
    · rfl
    · exact other
  | case5 line c cs other goesOn ih =>
    have last : finalFeed (c :: cs) = finalFeed cs := by
      cases cs with
      | nil => simp [finalFeed, goesOn]
      | cons d cs => rw [finalFeed, finalFeed, List.getLast?_cons_cons]
    rw [last, ih, feedBreaks, if_neg goesOn, List.reverse_cons, List.append_assoc]
    · rfl
    · exact other

/-- The lines have all that is no line break. -/
theorem flatten_linesFrom (line cs : List Char) :
    (linesFrom line cs).flatten = line.reverse ++ cs.filter (!isLineBreak ·) := by
  have breaks : isLineBreak '\r' ∧ isLineBreak '\n' := by decide
  fun_induction linesFrom line cs with
  | case1 line none => simp_all
  | case2 line some => simp
  | case3 line cs ih => simp [ih, breaks]
  | case4 line c cs other ends ih => simp [ih, ends]
  | case5 line c cs other goesOn ih => simp [ih, goesOn]

theorem not_isLineBreak_of_mem_lines {cs l : List Char} (line : l ∈ lines cs) {c : Char}
    (member : c ∈ l) : isLineBreak c = false := by
  have flat := flatten_linesFrom [] cs
  have within : c ∈ (linesFrom [] cs).flatten := List.mem_flatten_of_mem line member
  rw [flat] at within
  simpa using (List.mem_filter.1 within).2

/-- Where every break is a feed or a return, nothing but returns changes. -/
theorem feedBreaks_eq_feedOnly {cs : List Char}
    (plain : ∀ c ∈ cs, isLineBreak c → c = '\n' ∨ c = '\r') : feedBreaks cs = feedOnly cs := by
  have back : isLineBreak '\r' := by decide
  fun_induction feedBreaks cs with
  | case1 => rfl
  | case2 cs ih => simp_all [feedOnly]
  | case3 c cs other ih =>
    rw [feedOnly, ih fun d member => plain d (.tail _ member)]
    · have here := plain c (.head _)
      congr 1
      grind
    · exact other

theorem mem_feedOnly {cs : List Char} {c : Char} (member : c ∈ cs) (plain : c ≠ '\r') :
    c ∈ feedOnly cs := by
  fun_induction feedOnly cs <;> grind

theorem mem_joinFeed {ls : List (List Char)} {c : Char} (member : c ∈ joinFeed ls) :
    c = '\n' ∨ ∃ l ∈ ls, c ∈ l := by
  fun_induction joinFeed ls <;> grind

/-! ## Lines that get shorter -/

section

variable {f : List Char → List Char} (shorter : ∀ l, (f l).length ≤ l.length)

include shorter

/-- A text gets shorter by as much as its lines do. -/
theorem length_joinFeed_map (ls : List (List Char)) :
    (joinFeed (ls.map f)).length + (ls.map fun l => l.length - (f l).length).sum =
      (joinFeed ls).length := by
  fun_induction joinFeed ls with
  | case1 => rfl
  | case2 l =>
    have here := shorter l
    simp only [List.map_cons, List.map_nil, joinFeed, List.sum_cons, List.sum_nil]
    omega
  | case3 l ls some ih =>
    have here := shorter l
    have more : ls.map f ≠ [] := by simpa using some
    rw [List.map_cons, joinFeed_cons more, List.map_cons, List.sum_cons, List.length_append,
      List.length_append, List.length_cons, List.length_cons]
    omega

/-- So if it keeps its length, even with more at its end, there is no more and no line changes. -/
theorem length_of_joinFeed_map {ls : List (List Char)} {more : List Char}
    (same : (joinFeed (ls.map f)).length = (joinFeed ls ++ more).length) :
    more = [] ∧ ∀ l ∈ ls, (f l).length = l.length := by
  have lost := length_joinFeed_map shorter ls
  rw [List.length_append] at same
  have none : more.length = 0 := by omega
  have kept : (ls.map fun l => l.length - (f l).length).sum = 0 := by omega
  refine ⟨List.length_eq_zero_iff.1 none, fun l member => ?_⟩
  have here := shorter l
  have nothing : l.length - (f l).length = 0 :=
    List.sum_eq_zero_iff_forall_eq_nat.1 kept _ (List.mem_map_of_mem member)
  omega

end

end Text

namespace Script

open Text (feedOnly finalFeed isBlank isLineBreak joinFeed)

/-! ## Margins -/

def spaces (n : Nat) : List Char := List.replicate n ' '

/-- A line without a margin of `n` spaces, if it has one. -/
def outdent (n : Nat) (l : List Char) : List Char := if spaces n <+: l then l.drop n else l

/-- The lines that stand in a handler for an action, without the margin that they were given. -/
def outdentedLines (n : Nat) (action : String) : List (List Char) :=
  (indentAction (String.ofList (spaces n)) ((actionLines action).map String.ofList)).map
    fun l => outdent n l.toList

variable (n : Nat) (l : List Char)

theorem outdent_spaces : outdent n (spaces n ++ l) = l := by
  rw [outdent, if_pos (List.prefix_append _ _)]
  exact List.drop_left' List.length_replicate

theorem outdent_suffix : outdent n l <:+ l := by
  unfold outdent
  split
  · exact List.drop_suffix n l
  · exact List.suffix_refl l

/-- A line loses characters just where it starts with the margin. -/
theorem length_outdent_eq_iff :
    (outdent n l).length = l.length ↔ n = 0 ∨ ¬ spaces n <+: l := by
  unfold outdent
  split
  case isTrue start =>
    have reach := start.length_le
    simp only [spaces, List.length_replicate] at reach
    simp only [List.length_drop, start, not_true, or_false]
    omega
  case isFalse other => simp [other]

/-- What comes back of a line: blank lines get no margin, so they may lose what they begin with. -/
def returned (l : List Char) : List Char := if l.all isBlank then outdent n l else l

theorem outdentedLines_eq (action : String) :
    outdentedLines n action = (actionLines action).map (returned n) := by
  rw [outdentedLines, indentAction, Text.indentLines]
  simp only [List.map_map]
  apply List.map_congr_left
  intro l _
  simp only [Function.comp_apply, String.toList_ofList, returned]
  split
  · rfl
  · exact outdent_spaces n l

theorem returned_suffix : returned n l <:+ l := by
  unfold returned
  split
  · exact outdent_suffix n l
  · exact List.suffix_refl l

/-- A line of blanks may lose some, any other line none. -/
theorem length_returned_eq_iff :
    (returned n l).length = l.length ↔ (l.all isBlank → n = 0 ∨ ¬ spaces n <+: l) := by
  unfold returned
  split
  case isTrue blank => simp [length_outdent_eq_iff, blank]
  case isFalse shown => simp [shown]

/-! ## Actions -/

variable {n} {action : String}

/-- A block does not end in a line feed, so where no other line breaks stand it ends in a line break
just if it ends in a carriage return. -/
theorem finalFeed_actionBlock
    (plain : ∀ c ∈ actionBlock action, isLineBreak c → c = '\n' ∨ c = '\r') :
    finalFeed (actionBlock action) = [] ↔ (actionBlock action).getLast? ≠ some '\r' := by
  have back : isLineBreak '\r' := by decide
  unfold finalFeed
  cases stop : (actionBlock action).getLast? with
  | none => simp
  | some c =>
    have notFeed : c ≠ '\n' := by
      have := Text.getLast?_stripWhile stop
      simpa using this
    have ends := plain c (List.mem_of_getLast? stop)
    grind

/-- A line break that is no feed and no return cannot come back. -/
theorem plain_of_joinFeed
    (same : joinFeed (outdentedLines n action) = feedOnly (actionBlock action)) :
    ∀ c ∈ actionBlock action, isLineBreak c → c = '\n' ∨ c = '\r' := by
  intro c member ends
  by_contra other
  have there : c ∈ joinFeed (outdentedLines n action) := by
    rw [same]
    apply Text.mem_feedOnly member
    grind
  rw [outdentedLines_eq] at there
  obtain feed | ⟨l, line, within⟩ := Text.mem_joinFeed there
  · exact other (.inl feed)
  · obtain ⟨m, own, rfl⟩ := List.mem_map.1 line
    have unbroken := Text.not_isLineBreak_of_mem_lines own ((returned_suffix n m).subset within)
    grind

/-- The lines of an action hold all of it but the line breaks, and joined by line feeds they are the
action with a line feed for each of them; but for the margin this is what a handler holds. So the
action itself comes back just if all line breaks in it are line feeds and carriage returns, none of
the latter ends it, and no blank line starts with as many spaces as the margin has. -/
theorem decisionLines_action (n : Nat) (action : String) (branches : List Branch)
    (fallback : String) :
    (∃ emitted, decisionLines (String.ofList (spaces n)) ((actionLines action).map String.ofList)
        branches fallback = openingLines (String.ofList (spaces n)) ++ emitted ++
          choiceLines (String.ofList (spaces n)) branches fallback ∧
      outdentedLines n action = emitted.map fun l => outdent n l.toList) ∧
    (actionLines action).flatten = (actionBlock action).filter (!isLineBreak ·) ∧
    joinFeed (actionLines action) ++ finalFeed (actionBlock action) =
      Text.feedBreaks (actionBlock action) ∧
    (joinFeed (outdentedLines n action) = feedOnly (actionBlock action) ↔
      (∀ c ∈ actionBlock action, isLineBreak c → c = '\n' ∨ c = '\r') ∧
      (actionBlock action).getLast? ≠ some '\r' ∧
      ∀ l ∈ actionLines action, l.all isBlank → n = 0 ∨ ¬ spaces n <+: l) := by
  have characters : (actionLines action).flatten =
      (actionBlock action).filter (!isLineBreak ·) := by
    rw [actionLines, Text.lines, Text.flatten_linesFrom, List.reverse_nil, List.nil_append]
  have joined : joinFeed (actionLines action) ++ finalFeed (actionBlock action) =
      Text.feedBreaks (actionBlock action) := by
    rw [actionLines, Text.lines, Text.joinFeed_linesFrom, List.reverse_nil, List.nil_append]
  refine ⟨⟨indentAction (String.ofList (spaces n)) ((actionLines action).map String.ofList), rfl,
    rfl⟩, characters, joined, ?_⟩
  constructor
  · intro same
    have plain := plain_of_joinFeed same
    rw [← Text.feedBreaks_eq_feedOnly plain, ← joined, outdentedLines_eq] at same
    obtain ⟨none, kept⟩ := Text.length_of_joinFeed_map
      (fun l => (returned_suffix n l).length_le) (congrArg List.length same)
    refine ⟨plain, (finalFeed_actionBlock plain).1 none, fun l line => ?_⟩
    exact (length_returned_eq_iff n l).1 (kept l line)
  · rintro ⟨plain, last, blank⟩
    have kept : (actionLines action).map (returned n) = actionLines action := by
      have same : ∀ l ∈ actionLines action, returned n l = l := by
        intro l line
        apply (returned_suffix n l).eq_of_length
        exact (length_returned_eq_iff n l).2 (blank l line)
      exact (List.map_congr_left same).trans (List.map_id _)
    rw [outdentedLines_eq, kept, ← Text.feedBreaks_eq_feedOnly plain, ← joined,
      (finalFeed_actionBlock plain).2 last, List.append_nil]

/-- A line separator in a string literal of an action, which ends no line there, is lost, and the
literal is broken off. -/
theorem decisionLines_separator :
    outdentedLines 8 "result = 'a\u2028b'" = ["result = 'a".toList, "b'".toList] ∧
      joinFeed (outdentedLines 8 "result = 'a\u2028b'") ≠
        feedOnly (actionBlock "result = 'a\u2028b'") := by
  decide

end Script

end Dialogue
