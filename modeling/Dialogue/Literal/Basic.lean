import Dialogue.Document.Alike
import Dialogue.Literal.SetOrder

/-!
# Literals

The values that a literal expression of the generated module can have. Numbers are compared by value
whatever their kind; members of a set and keys of a dictionary are told apart in this way.
-/

namespace Dialogue

/-- A complex number by its real and imaginary parts. -/
structure Complex where
  re : Float
  im : Float
deriving DecidableEq

inductive Literal where
  | null
  | bool (b : Bool)
  | int (n : Int)
  | float (x : Float)
  | complex (z : Complex)
  | text (codes : List Nat)
  | bytes (bs : List Nat)
  | list (items : List Literal)
  | tuple (items : List Literal)
  | set (items : List Literal)
  | dict (entries : List (Literal × Literal))
deriving Inhabited

namespace Literal

/-- A number as a scalar that it equals, if it is real. -/
def real? : Literal → Option Scalar
  | .bool b => some (.bool b)
  | .int n => some (.int n)
  | .float x => some (.float x)
  | .complex z => if z.im == 0.0 then some (.float z.re) else none
  | _ => none

def alikeNumbers (a b : Literal) : Bool :=
  match a.real?, b.real? with
  | some x, some y => x.alike y
  | none, none =>
    match a, b with
    | .complex z, .complex w => z.re == w.re && z.im == w.im
    | _, _ => false
  | _, _ => false

mutual

def alike : Literal → Literal → Bool
  | .null, .null => true
  | .text a, .text b => a == b
  | .bytes a, .bytes b => a == b
  | .list xs, .list ys => alikeItems xs ys
  | .tuple xs, .tuple ys => alikeItems xs ys
  | .set xs, .set ys => xs.length == ys.length && alikeMembers xs ys
  | .dict xs, .dict ys => xs.length == ys.length && alikeEntries xs ys
  | a, b => alikeNumbers a b

def alikeItems : List Literal → List Literal → Bool
  | [], [] => true
  | x :: xs, y :: ys => alike x y && alikeItems xs ys
  | _, _ => false

/-- Every member is alike to a member of the other set. -/
def alikeMembers : List Literal → List Literal → Bool
  | [], _ => true
  | x :: xs, ys => ys.any (alike x) && alikeMembers xs ys

/-- Every entry has its like in the other dictionary. -/
def alikeEntries : List (Literal × Literal) → List (Literal × Literal) → Bool
  | [], _ => true
  | (k, x) :: xs, ys => (ys.any fun (l, y) => alike k l && alike x y) && alikeEntries xs ys

end

mutual

/-- What cannot change can be a member of a set or a key. -/
def isFixed : Literal → Bool
  | .list _ | .set _ | .dict _ => false
  | .tuple xs => areFixed xs
  | _ => true

def areFixed : List Literal → Bool
  | [] => true
  | x :: xs => isFixed x && areFixed xs

end

/-- The whole number that a literal equals, if it equals one. -/
def wholeValue? (l : Literal) : Option Int := l.real?.bind Scalar.wholeValue?

/-- The members of a set, the first of those alike. Whole numbers stand in the order of their table,
other members as they come. -/
def setOf (xs : List Literal) : Literal :=
  let members := xs.foldl (fun ys x => if ys.any x.alike then ys else ys ++ [x]) []
  match members.mapM fun l => l.wholeValue?.map fun n => (n, l) with
  | some numbers => .set (tableOrder numbers)
  | none => .set members

/-- Writes a value under a key; an alike key already there keeps its place and spelling. -/
def putEntry (key value : Literal) : List (Literal × Literal) → List (Literal × Literal)
  | [] => [(key, value)]
  | (k, x) :: es =>
    if k.alike key then (k, value) :: es else (k, x) :: putEntry key value es

def dictOf (entries : List (Literal × Literal)) : Literal :=
  .dict (entries.foldl (fun es e => putEntry e.1 e.2 es) [])

end Literal
end Dialogue
