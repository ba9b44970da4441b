/-!
# The order of sets

A set of whole numbers is shown in the order of a table, in which each number has its slot by its
remainder. A slot that is taken sends a number on, and a table that is three fifths full grows.
-/

namespace Dialogue.Literal

/-- A table of so many slots. Those taken stand in order: the slot, the mark of its member, and the
member. -/
structure SlotTable (α : Type) where
  size : Nat := 8
  taken : List (Nat × Nat × α) := []

namespace SlotTable

variable {α : Type}

/-- What a whole number is placed by: its remainder by the prime 2⁶¹ - 1, as a word of 64 bits. -/
def mark (n : Int) : Nat :=
  let rest := n.tmod 0x1fffffffffffffff
  ((if rest = -1 then -2 else rest) % 0x10000000000000000).toNat

/-- The first free slot on the way from `start`. Where the table has room, the next nine slots are
tried before the next leap, which the bits of `pull` direct at first. A table with free slots has
been leapt through once all of these bits are used up, so the fuel is never spent. -/
def freeSlot (t : SlotTable α) : (fuel : Nat) → (start pull : Nat) → Nat
  | 0, start, _ => start
  | fuel + 1, start, pull =>
    let run := List.range' start (if start + 9 < t.size then 10 else 1)
    match run.find? fun i => t.taken.all fun e => e.1 != i with
    | some i => i
    | none => freeSlot t fuel ((5 * start + 1 + pull / 32) % t.size) (pull / 32)

def place (t : SlotTable α) (mark : Nat) (a : α) : SlotTable α :=
  let slot := t.freeSlot (t.size + 13) (mark % t.size) mark
  let (before, after) := t.taken.span fun e => e.1 < slot
  { t with taken := before ++ (slot, mark, a) :: after }

/-- A larger table of the same members, which are placed anew. -/
def grown (t : SlotTable α) : SlotTable α :=
  let least := if 50000 < t.taken.length then 2 * t.taken.length else 4 * t.taken.length
  t.taken.foldl (fun t e => t.place e.2.1 e.2.2) { size := 1 <<< (Nat.log2 least + 1) }

def add (t : SlotTable α) (mark : Nat) (a : α) : SlotTable α :=
  let t := t.place mark a
  if 5 * t.taken.length < 3 * (t.size - 1) then t else t.grown

def members (t : SlotTable α) : List α := t.taken.map (·.2.2)

end SlotTable

/-- The members of a set, given with the whole numbers that they equal, in the order of their
table. -/
def tableOrder {α : Type} (xs : List (Int × α)) : List α :=
  (xs.foldl (fun t x => t.add (SlotTable.mark x.1) x.2) ({} : SlotTable α)).members

end Dialogue.Literal
