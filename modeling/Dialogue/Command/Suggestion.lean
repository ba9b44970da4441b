/-!
# Suggestions

Names that a mistyped name may have meant. Two names are close when at least six tenths of their
characters lie in blocks that they share, found longest block first.
-/

namespace Dialogue.Command

/-- How many characters two texts begin with in common. -/
def commonLength : List Char → List Char → Nat
  | a :: as, b :: bs => if a = b then commonLength as bs + 1 else 0
  | _, _ => 0

/-- A block of characters that two texts share, by where it starts in either. -/
structure Block where
  first : Nat
  second : Nat
  length : Nat

def longer (a b : Block) : Block := if a.length < b.length then b else a

/-- The longest shared block, the earliest of several. -/
def longestBlock (as bs : List Char) : Block :=
  (List.range as.length).foldl (fun best i =>
    (List.range bs.length).foldl (fun best j =>
      longer best ⟨i, j, commonLength (as.drop i) (bs.drop j)⟩) best) ⟨0, 0, 0⟩

/-- How many characters lie in shared blocks: the longest one, and those to its left and right. -/
def sharedLength : (fuel : Nat) → List Char → List Char → Nat
  | 0, _, _ => 0
  | fuel + 1, as, bs =>
    let b := longestBlock as bs
    if b.length = 0 then 0
    else
      b.length + sharedLength fuel (as.take b.first) (bs.take b.second) +
        sharedLength fuel (as.drop (b.first + b.length)) (bs.drop (b.second + b.length))

def isClose (a b : String) : Bool :=
  3 * (a.length + b.length) ≤ 10 * sharedLength (a.length + 1) a.toList b.toList

def suggestions (name : String) (known : List String) : List String :=
  known.filter fun k => isClose k name

end Dialogue.Command
