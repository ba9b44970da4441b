import Dialogue.Number.Decimal
import Dialogue.Text.Blank
import Dialogue.Text.Digit

/-!
# Reading numbers

`intOfText?` and `floatOfText?` read numbers as people write them: blanks around, digits of any
script, single underscores between digits. `lenientInt?` and `lenientFloat?` read the numbers that a
document gives as text; they know ASCII digits alone, and whole numbers may show a fraction of
zeros.
-/

namespace Dialogue.Number

open Text (isSpace stripWhile)

/-- Whole numbers of more digits are refused by every reader. -/
def maxDigits : Nat := 4300

def asciiDigit? (c : Char) : Option Nat := if c.isDigit then some (c.toNat - 0x30) else none

/-- A run of digits with single underscores between two of them; empty runs are allowed. -/
def digitRun? (digit? : Char → Option Nat) : List Char → Option (List Nat)
  | [] => some []
  | c :: '_' :: d :: cs => do
    let v ← digit? c
    let rest ← digitRun? digit? (d :: cs)
    some (v :: rest)
  | c :: cs => do
    let v ← digit? c
    let rest ← digitRun? digit? cs
    some (v :: rest)

def natOfDigits (base : Nat) (ds : List Nat) : Nat := ds.foldl (fun n d => base * n + d) 0

/-- A leading sign, and what follows it. -/
def takeSign : List Char → Bool × List Char
  | '-' :: cs => (true, cs)
  | '+' :: cs => (false, cs)
  | cs => (false, cs)

def signed (negative : Bool) (n : Nat) : Int := if negative then -n else n

def intOfText? (cs : List Char) : Option Int := do
  let (negative, body) := takeSign (stripWhile isSpace cs)
  let ds ← digitRun? Text.digitValue? body
  if ds.isEmpty ∨ maxDigits < ds.length then none
  else some (signed negative (natOfDigits 10 ds))

/-- What stands before the first character that satisfies `p`, and what after it, if any does. -/
def cut (p : Char → Bool) (cs : List Char) : List Char × Option (List Char) :=
  (cs.takeWhile (!p ·), match cs.dropWhile (!p ·) with | [] => none | _ :: rest => some rest)

def exponentOf? (digit? : Char → Option Nat) : Option (List Char) → Option Int
  | none => some 0
  | some cs => do
    let (negative, body) := takeSign cs
    let ds ← digitRun? digit? body
    if ds.isEmpty then none else some (signed negative (natOfDigits 10 ds))

/-- A decimal: digits with at most one point among or beside them, and perhaps an exponent. -/
def decimalOf? (digit? : Char → Option Nat) (cs : List Char) : Option Decimal := do
  let (body, exponent) := cut (fun c => c == 'e' || c == 'E') cs
  let (whole, fraction) := cut (· == '.') body
  let ds ← digitRun? digit? whole
  let fs ← digitRun? digit? (fraction.getD [])
  let e ← exponentOf? digit? exponent
  if ds.isEmpty && fs.isEmpty then none
  else some ⟨natOfDigits 10 (ds ++ fs), e - fs.length⟩

/-- A float after its sign: a decimal, or the name of infinity or of no number in any case. -/
def unsignedFloat? (digit? : Char → Option Nat) (cs : List Char) : Option Float :=
  let name := String.ofList (cs.map Char.toLower)
  if name = "inf" ∨ name = "infinity" then some infinity
  else if name = "nan" then some notANumber
  else (decimalOf? digit? cs).map Decimal.toFloat

def signedFloat? (digit? : Char → Option Nat) (cs : List Char) : Option Float :=
  let (negative, body) := takeSign cs
  (unsignedFloat? digit? body).map fun x => if negative then -x else x

def floatOfText? (cs : List Char) : Option Float :=
  signedFloat? Text.digitValue? (stripWhile isSpace cs)

/-- The text without its underscores, if it has any and each stands between other characters. -/
def dropUnderscores? (cs : List Char) : Option (List Char) :=
  let rec doubled : List Char → Bool
    | '_' :: '_' :: _ => true
    | _ :: cs => doubled cs
    | [] => false
  if cs.head? = some '_' ∨ cs.getLast? = some '_' ∨ doubled cs ∨ !cs.contains '_' then none
  else some (cs.filter (· != '_'))

/-- A whole number without needless zeros in front. -/
def plainInt? (cs : List Char) : Option Int :=
  let (negative, body) := match cs with
    | '-' :: rest => (true, rest)
    | _ => (false, cs)
  if body.isEmpty ∨ !body.all Char.isDigit ∨ (body.head? = some '0' ∧ 1 < body.length) then none
  else some (signed negative (natOfDigits 10 (body.map fun c => c.toNat - 0x30)))

/-- Zeros in front are dropped, underscores among them too, down to one digit. -/
def dropZeros? : List Char → Option (List Char)
  | '0' :: cs =>
    let rest := cs.dropWhile fun c => c == '0' || c == '_'
    match rest with
    | [] => some [cs.getLast?.getD '0']
    | '.' :: _ => some ((cs.take (cs.length - rest.length)).getLast?.getD '0' :: rest)
    | c :: _ => if c.isDigit then some rest else none
  | c :: cs => if c.isDigit || c == '-' then some (c :: cs) else none
  | [] => none

/-- A fraction of zeros is dropped. -/
def dropZeroFraction (cs : List Char) : List Char :=
  match cut (· == '.') cs with
  | (whole, some fraction) =>
    if !fraction.isEmpty && fraction.all (· == '0') then whole else cs
  | (_, none) => cs

inductive IntText
  | value (n : Int)
  | tooLong
  | notInt

/-- A whole number given as text, perhaps with a fraction of zeros. -/
def lenientInt (cs : List Char) : IntText :=
  let body := stripWhile isSpace cs
  if maxDigits < body.length then .tooLong
  else
    match plainInt? body with
    | some n => .value n
    | none =>
      let unsigned := if body.head? = some '+' then body.drop 1 else body
      if body.head? = some '+' ∧ unsigned.head? = some '-' then .notInt
      else
        let cleaned := (dropZeros? unsigned).map dropZeroFraction
        match cleaned.bind fun c => plainInt? ((dropUnderscores? c).getD c) with
        | some n => .value n
        | none => .notInt

/-- A float given as text. -/
def lenientFloat? (cs : List Char) : Option Float :=
  let plain (cs : List Char) := if cs.contains '_' then none else signedFloat? asciiDigit? cs
  (plain (stripWhile isSpace cs)).orElse fun _ => (dropUnderscores? cs).bind plain

end Dialogue.Number
