import Dialogue.Document.Basic
import Mathlib.Data.List.Basic

/-!
# Paths into documents

A path has a slash before each of its steps. A step is a key of a map or a place in a list, written
in decimal. Paths whose steps hold no slash tell their steps.
-/

namespace Dialogue

def pathOf (steps : List String) : String := String.join (steps.map ("/" ++ ·))

namespace Document

/-- The number that decimal digits are read as. -/
def placeOf? (step : String) : Option Nat :=
  if step ≠ "" ∧ step.toList.all Char.isDigit then some (Nat.ofDigitChars 10 step.toList 0)
  else none

/-- What is one step down. -/
def child? : Document → String → Option Document
  | .map es, step => Entries.get? es step
  | .list xs, step => (placeOf? step).bind (xs[·]?)
  | _, _ => none

def at? (d : Document) : List String → Option Document
  | [] => some d
  | step :: steps => (d.child? step).bind (·.at? steps)

/-- What a path leads to. -/
def resolve (d : Document) (path : String) : Option Document :=
  match path.toList.splitOn '/' with
  | [] :: steps => d.at? (steps.map String.ofList)
  | _ => none

end Document

/-- No slash stands in the text. -/
def SlashFree (s : String) : Prop := '/' ∉ s.toList

theorem isDigit_of_mem_repr {n : Nat} {c : Char} (member : c ∈ n.repr.toList) : c.isDigit := by
  rw [Nat.toList_repr] at member
  exact Nat.isDigit_of_mem_toDigits (by decide) (by decide) member

/-- Numbers need no escapes in a path. -/
theorem slashFree_repr (n : Nat) : SlashFree n.repr := fun member =>
  absurd (isDigit_of_mem_repr member) (by decide)

/-- A path falls apart at its slashes into the steps it was made of. -/
theorem splitOn_pathOf {steps : List String} (plain : ∀ s ∈ steps, SlashFree s) :
    (pathOf steps).toList.splitOn '/' = [] :: steps.map String.toList := by
  have joined : (pathOf steps).toList = ['/'].intercalate ([] :: steps.map String.toList) := by
    rw [pathOf, String.toList_join]
    induction steps with
    | nil => rfl
    | cons s steps ih =>
      have rest := ih fun t member => plain t (.tail _ member)
      cases steps with
      | nil => simp
      | cons t steps => simpa using rest
  rw [joined, List.splitOn_intercalate '/' ?_ (by simp)]
  simpa [SlashFree] using plain

/-- Resolving a path goes through its steps. -/
theorem resolve_pathOf (d : Document) {steps : List String} (plain : ∀ s ∈ steps, SlashFree s) :
    d.resolve (pathOf steps) = d.at? steps := by
  simp [Document.resolve, splitOn_pathOf plain]

/-- A path tells its steps. -/
theorem pathOf_inj {steps steps' : List String} (plain : ∀ s ∈ steps, SlashFree s)
    (plain' : ∀ s ∈ steps', SlashFree s) (same : pathOf steps = pathOf steps') :
    steps = steps' := by
  have pieces : [] :: steps.map String.toList = [] :: steps'.map String.toList := by
    rw [← splitOn_pathOf plain, ← splitOn_pathOf plain', same]
  exact List.map_injective_iff.2 (fun _ _ => String.toList_inj.1) (List.cons.inj pieces).2

namespace Document

/-- A place that was written as a step is read back. -/
theorem placeOf?_repr (i : Nat) : placeOf? i.repr = some i := by
  have digits : i.repr.toList.all Char.isDigit := by
    rw [List.all_eq_true]
    exact fun c member => isDigit_of_mem_repr member
  have some : i.repr ≠ "" := by
    rw [Ne, ← String.toList_inj, Nat.toList_repr]
    exact Nat.toDigits_ne_nil
  rw [placeOf?, if_pos ⟨some, digits⟩, Nat.toList_repr, Nat.ofDigitChars_ten_toDigits]

theorem child?_list (xs : List Document) (i : Nat) : (list xs).child? i.repr = xs[i]? := by
  rw [child?, placeOf?_repr, Option.bind_some]

end Document
end Dialogue
