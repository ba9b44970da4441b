import Dialogue.Document.Basic
import Dialogue.Number.Decimal

/-!
# Alike documents

Two documents are alike when they hold equal values: numbers are compared by value whatever their
kind, with the truth values as one and zero, and maps without regard to the order of their entries.
-/

namespace Dialogue

/-- The whole number that a scalar equals, if it equals one. -/
def Scalar.wholeValue? : Scalar → Option Int
  | .bool b => some (if b then 1 else 0)
  | .int n => some n
  | .float x => Number.wholeValue? x
  | _ => none

def Scalar.alike (a b : Scalar) : Bool :=
  match a.wholeValue?, b.wholeValue? with
  | some m, some n => m == n
  | none, none =>
    match a, b with
    | .float x, .float y => x == y
    | _, _ => a == b
  | _, _ => false

/-- Writes a value under a key; an alike key already there keeps its place and spelling. -/
def insertAlike (alike : κ → κ → Bool) (es : List (κ × α)) (key : κ) (a : α) : List (κ × α) :=
  match es with
  | [] => [(key, a)]
  | (k, x) :: rest => if alike k key then (k, a) :: rest else (k, x) :: insertAlike alike rest key a

namespace Entries

/-- The value under a key that is alike. -/
def find? (es : Entries) (key : Scalar) : Option Document :=
  match es with
  | [] => none
  | (k, d) :: rest => if k.alike key then some d else find? rest key

/-- Writes a value under any scalar key. -/
def insert (es : Entries) (key : Scalar) (d : Document) : Entries :=
  insertAlike Scalar.alike es key d

end Entries

namespace Document

mutual

def alike : Document → Document → Bool
  | .scalar a, .scalar b => a.alike b
  | .list xs, .list ys => alikeList xs ys
  | .map xs, .map ys => xs.length == ys.length && alikeEntries xs ys
  | _, _ => false

def alikeList : List Document → List Document → Bool
  | [], [] => true
  | x :: xs, y :: ys => alike x y && alikeList xs ys
  | _, _ => false

/-- Every entry has its like in a map. -/
def alikeEntries : Entries → Entries → Bool
  | [], _ => true
  | (k, x) :: xs, ys =>
    (match Entries.find? ys k with
      | some y => alike x y
      | none => false) && alikeEntries xs ys

end

end Document
end Dialogue
