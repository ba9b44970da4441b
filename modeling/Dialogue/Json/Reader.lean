import Dialogue.Document.Alike
import Dialogue.Number.Reader

/-!
# Reading JSON

The reader accepts JSON with the three names of floats that are not numbers, keeps whole numbers
apart from floats, and lets the last of several equal keys win in the place of the first. Escaped
surrogates that pair with nothing are kept.
-/

namespace Dialogue.Json

inductive Fault where
  | notJson
  | hugeNumber
deriving DecidableEq, Repr

def isSpace (c : Char) : Bool := c == ' ' || c == '\t' || c == '\n' || c == '\r'

def skipSpace (cs : List Char) : List Char := cs.dropWhile isSpace

def hexValue? (c : Char) : Option Nat :=
  if c.isDigit then some (c.toNat - 0x30)
  else if 'a' ≤ c ∧ c ≤ 'f' then some (c.toNat - 0x57)
  else if 'A' ≤ c ∧ c ≤ 'F' then some (c.toNat - 0x37)
  else none

/-- The code unit of an escape, after its `u`. -/
def unit? : List Char → Option (Nat × List Char)
  | a :: b :: c :: d :: cs => do
    some (Number.natOfDigits 16 [← hexValue? a, ← hexValue? b, ← hexValue? c, ← hexValue? d], cs)
  | _ => none

def isHighSurrogate (u : Nat) : Bool := 0xd800 ≤ u && u < 0xdc00
def isLowSurrogate (u : Nat) : Bool := 0xdc00 ≤ u && u < 0xe000

def joinSurrogates (high low : Nat) : Nat := 0x10000 + (high - 0xd800) * 0x400 + (low - 0xdc00)

def escape? : Char → Option Nat
  | '"' => some 0x22
  | '\\' => some 0x5c
  | '/' => some 0x2f
  | 'b' => some 8
  | 'f' => some 12
  | 'n' => some 10
  | 'r' => some 13
  | 't' => some 9
  | _ => none

/-- The code point of an escape, after its backslash. -/
def escaped? : List Char → Option (Nat × List Char)
  | 'u' :: cs => do
    let (u, rest) ← unit? cs
    if isHighSurrogate u then
      match rest with
      | '\\' :: 'u' :: more =>
        let (v, rest') ← unit? more
        some (if isLowSurrogate v then (joinSurrogates u v, rest') else (u, rest))
      | _ => some (u, rest)
    else some (u, rest)
  | c :: cs => (escape? c).map fun u => (u, cs)
  | [] => none

/-- The code points of a string after its opening quote. -/
def stringBody : (fuel : Nat) → List Char → Except Fault (List Nat × List Char)
  | 0, _ => .error .notJson
  | fuel + 1, cs =>
    match cs with
    | [] => .error .notJson
    | '"' :: rest => .ok ([], rest)
    | '\\' :: rest =>
      match escaped? rest with
      | none => .error .notJson
      | some (u, rest) => do
        let (us, rest) ← stringBody fuel rest
        .ok (u :: us, rest)
    | c :: rest =>
      if c.toNat < 0x20 then .error .notJson
      else do
        let (us, rest) ← stringBody fuel rest
        .ok (c.toNat :: us, rest)

def takeDigits (cs : List Char) : List Char × List Char :=
  (cs.takeWhile Char.isDigit, cs.dropWhile Char.isDigit)

/-- A fraction, if one stands here: a point and at least one digit. -/
def takeFraction (cs : List Char) : List Char × List Char :=
  match cs with
  | '.' :: rest =>
    let (ds, rest) := takeDigits rest
    if ds.isEmpty then ([], cs) else (ds, rest)
  | _ => ([], cs)

/-- An exponent, if one stands here. -/
def takeExponent (cs : List Char) : Option Int × List Char :=
  match cs with
  | e :: rest =>
    if e = 'e' ∨ e = 'E' then
      let (negative, rest) := Number.takeSign rest
      let (ds, rest) := takeDigits rest
      if ds.isEmpty then (none, cs)
      else
        let size := Number.natOfDigits 10 (ds.map fun c => c.toNat - 0x30)
        (some (Number.signed negative size), rest)
    else (none, cs)
  | [] => (none, cs)

/-- The whole digits of a number: a zero alone, or digits that start with another. -/
def takeWhole (cs : List Char) : List Char × List Char :=
  match cs with
  | '0' :: rest => (['0'], rest)
  | _ => takeDigits cs

def digitsValue (ds : List Char) : Nat := Number.natOfDigits 10 (ds.map fun c => c.toNat - 0x30)

def number (negative : Bool) (cs : List Char) : Except Fault (Document × List Char) :=
  let (whole, rest) := takeWhole cs
  if whole.isEmpty then .error .notJson
  else
    let (fraction, rest) := takeFraction rest
    let (exponent, rest) := takeExponent rest
    if fraction.isEmpty && exponent.isNone then
      if Number.maxDigits < whole.length then .error .hugeNumber
      else .ok (.int (Number.signed negative (digitsValue whole)), rest)
    else
      let x := Decimal.toFloat ⟨digitsValue (whole ++ fraction), exponent.getD 0 - fraction.length⟩
      .ok (.float (if negative then -x else x), rest)

/-- The rest of a text after an expected beginning. -/
def after? : (start : List Char) → List Char → Option (List Char)
  | [], cs => some cs
  | s :: ss, c :: cs => if s = c then after? ss cs else none
  | _ :: _, [] => none

/-- The words that stand for values. -/
def wordValues : List (List Char × Document) := [
  ("null".toList, .null), ("true".toList, .bool true), ("false".toList, .bool false),
  ("NaN".toList, .float Number.notANumber), ("Infinity".toList, .float Number.infinity),
  ("-Infinity".toList, .float (-Number.infinity))]

def word? (cs : List Char) : Option (Document × List Char) :=
  wordValues.findSome? fun (w, d) => (after? w cs).map fun rest => (d, rest)

mutual

def value : (fuel : Nat) → List Char → Except Fault (Document × List Char)
  | 0, _ => .error .notJson
  | fuel + 1, cs =>
    match cs with
    | '"' :: rest => do
      let (codes, rest) ← stringBody (rest.length + 1) rest
      .ok (.scalar (Scalar.ofCodes codes), rest)
    | '[' :: rest =>
      match skipSpace rest with
      | ']' :: rest => .ok (.list [], rest)
      | rest => do
        let (xs, rest) ← items fuel rest
        .ok (.list xs, rest)
    | '{' :: rest =>
      match skipSpace rest with
      | '}' :: rest => .ok (.map [], rest)
      | rest => do
        let (es, rest) ← members fuel [] rest
        .ok (.map es, rest)
    | _ =>
      match word? cs with
      | some found => .ok found
      | none =>
        match cs with
        | '-' :: rest => number true rest
        | _ => number false cs

/-- The items of a list, up to its closing bracket. -/
def items : (fuel : Nat) → List Char → Except Fault (List Document × List Char)
  | 0, _ => .error .notJson
  | fuel + 1, cs => do
    let (x, rest) ← value fuel cs
    match skipSpace rest with
    | ']' :: rest => .ok ([x], rest)
    | ',' :: rest =>
      let (xs, rest) ← items fuel (skipSpace rest)
      .ok (x :: xs, rest)
    | _ => .error .notJson

/-- The entries of a map, up to its closing brace. -/
def members : (fuel : Nat) → Entries → List Char → Except Fault (Entries × List Char)
  | 0, _, _ => .error .notJson
  | fuel + 1, es, cs =>
    match cs with
    | '"' :: rest => do
      let (codes, rest) ← stringBody (rest.length + 1) rest
      match skipSpace rest with
      | ':' :: rest =>
        let (x, rest) ← value fuel (skipSpace rest)
        let es := es.insert (Scalar.ofCodes codes) x
        match skipSpace rest with
        | '}' :: rest => .ok (es, rest)
        | ',' :: rest => members fuel es (skipSpace rest)
        | _ => .error .notJson
      | _ => .error .notJson
    | _ => .error .notJson

end

def readChars (cs : List Char) : Except Fault Document := do
  let start := skipSpace cs
  let (d, rest) ← value (start.length + 1) start
  if (skipSpace rest).isEmpty then .ok d else .error .notJson

def read (s : String) : Except Fault Document := readChars s.toList

end Dialogue.Json
