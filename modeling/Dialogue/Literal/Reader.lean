import Dialogue.Document.Malformed
import Dialogue.Literal.Token

/-!
# Reading literals

A text is first read as a form, which may join a number and an imaginary one by a sign, and then
evaluated. What is not made of literals alone is no literal.
-/

namespace Dialogue.Literal

/-- A literal as it is written. -/
inductive Form where
  | leaf (l : Literal)
  | signed (negative : Bool) (l : Literal)
  | sum (negative : Bool) (left : Form) (right : Literal)
  | list (items : List Form)
  | tuple (items : List Form)
  | set (items : List Form)
  | dict (entries : List (Form × Form))
deriving Inhabited

/-! ## Forms from tokens -/

def isNumber : Literal → Bool
  | .int _ | .float _ | .complex _ => true
  | _ => false

def number : Form → Option Literal
  | .leaf l => if isNumber l then some l else none
  | _ => none

/-- Strings side by side are one string. -/
def joinStrings : Literal → List Token → Option (Literal × List Token)
  | .text a, .leaf (.text b) :: ts => joinStrings (.text (a ++ b)) ts
  | .bytes a, .leaf (.bytes b) :: ts => joinStrings (.bytes (a ++ b)) ts
  | _, .leaf _ :: _ => none
  | l, ts => some (l, ts)

def wordValue? : String → Option Literal
  | "None" => some .null
  | "True" => some (.bool true)
  | "False" => some (.bool false)
  | _ => none

mutual

/-- A form without sign or sum: a number, string or word, or what brackets hold. -/
def atom : (fuel : Nat) → List Token → Option (Form × List Token)
  | 0, _ => none
  | _, .leaf l :: ts => (joinStrings l ts).map fun x => (.leaf x.1, x.2)
  | _, .word "set" :: .mark '(' :: .mark ')' :: ts => some (.set [], ts)
  | _, .word w :: ts => (wordValue? w).map fun l => (.leaf l, ts)
  | fuel + 1, .mark '[' :: ts => (items fuel ']' ts).map fun x => (.list x.1, x.2.2)
  | _, .mark '(' :: .mark ')' :: ts => some (.tuple [], ts)
  | fuel + 1, .mark '(' :: ts => do
    match ← items fuel ')' ts with
    | ([x], false, ts) => some (x, ts)
    | (xs, _, ts) => some (.tuple xs, ts)
  | _, .mark '{' :: .mark '}' :: ts => some (.dict [], ts)
  | fuel + 1, .mark '{' :: ts => do
    let (x, ts) ← form fuel ts
    match ts with
    | .mark ':' :: ts => (entryFrom fuel x ts).map fun x => (.dict x.1, x.2)
    | .mark ',' :: ts => (items fuel '}' ts).map fun xs => (.set (x :: xs.1), xs.2.2)
    | .mark '}' :: ts => some (.set [x], ts)
    | _ => none
  | _, _ => none

def operand : (fuel : Nat) → List Token → Option (Form × List Token)
  | 0, _ => none
  | fuel + 1, .mark '-' :: ts => do
    let (x, ts) ← atom fuel ts
    some (.signed true (← number x), ts)
  | fuel + 1, .mark '+' :: ts => do
    let (x, ts) ← atom fuel ts
    some (.signed false (← number x), ts)
  | fuel + 1, ts => atom fuel ts

/-- A form, with at most one sum in it. -/
def form : (fuel : Nat) → List Token → Option (Form × List Token)
  | 0, _ => none
  | fuel + 1, ts => do
    let (x, ts) ← operand fuel ts
    match ts with
    | .mark '+' :: ts => do
      let (y, ts) ← atom fuel ts
      some (.sum false x (← number y), ts)
    | .mark '-' :: ts => do
      let (y, ts) ← atom fuel ts
      some (.sum true x (← number y), ts)
    | _ => some (x, ts)

/-- Forms up to a closing bracket, whether a comma came last, and what follows. -/
def items : (fuel : Nat) → (closing : Char) → List Token → Option (List Form × Bool × List Token)
  | 0, _, _ => none
  | fuel + 1, closing, ts =>
    match ts with
    | .mark c :: rest =>
      if c = closing then some ([], true, rest) else itemsFrom fuel closing ts
    | _ => itemsFrom fuel closing ts

def itemsFrom : (fuel : Nat) → (closing : Char) → List Token →
    Option (List Form × Bool × List Token)
  | 0, _, _ => none
  | fuel + 1, closing, ts => do
    let (x, ts) ← form fuel ts
    match ts with
    | .mark ',' :: ts => do
      let (xs, comma, ts) ← items fuel closing ts
      some (x :: xs, comma, ts)
    | .mark c :: ts => if c = closing then some ([x], false, ts) else none
    | _ => none

/-- The entry with a given key, and those after it. -/
def entryFrom : (fuel : Nat) → Form → List Token → Option (List (Form × Form) × List Token)
  | 0, _, _ => none
  | fuel + 1, key, ts => do
    let (x, ts) ← form fuel ts
    match ts with
    | .mark ',' :: ts => do
      let (es, ts) ← entries fuel ts
      some ((key, x) :: es, ts)
    | .mark '}' :: ts => some ([(key, x)], ts)
    | _ => none

def entries : (fuel : Nat) → List Token → Option (List (Form × Form) × List Token)
  | 0, _ => none
  | _, .mark '}' :: ts => some ([], ts)
  | fuel + 1, ts => do
    let (key, ts) ← form fuel ts
    match ts with
    | .mark ':' :: ts => entryFrom fuel key ts
    | _ => none

end

/-- Forms after commas up to the end of the line. -/
def moreItems : (fuel : Nat) → List Token → Option (List Form × List Token)
  | 0, _ => none
  | _, .mark ',' :: .lineEnd :: ts => some ([], .lineEnd :: ts)
  | fuel + 1, .mark ',' :: ts => do
    let (x, ts) ← form fuel ts
    let (xs, ts) ← moreItems fuel ts
    some (x :: xs, ts)
  | _, ts => some ([], ts)

def isLineEnd : Token → Bool
  | .lineEnd => true
  | _ => false

/-- A whole text: one form, or a tuple without parentheses. -/
def formOf? (ts : List Token) : Option Form := do
  let fuel := 4 * ts.length + 4
  let (x, rest) ← form fuel ts
  let isTuple := match rest with
    | .mark ',' :: _ => true
    | _ => false
  let (xs, rest) ← moreItems fuel rest
  if !rest.all isLineEnd then none
  else if isTuple then some (.tuple (x :: xs)) else some x

/-! ## Values of forms -/

inductive Fault where
  | notLiteral
  /-- A whole number that is added to an imaginary one is out of range. -/
  | tooLarge
deriving DecidableEq, Repr

def negate : Literal → Literal
  | .int n => .int (-n)
  | .float x => .float (-x)
  | .complex z => .complex ⟨-z.re, -z.im⟩
  | l => l

def realPart : Literal → Except Fault Float
  | .int n =>
    match Number.ofInt? n with
    | some x => .ok x
    | none => .error .tooLarge
  | .float x => .ok x
  | _ => .error .notLiteral

/-- A real number and an imaginary one, added or subtracted. -/
def sumValue (negative : Bool) (left : Literal) : Literal → Except Fault Literal
  | .complex z => do
    let x ← realPart left
    .ok (.complex (if negative then ⟨x - z.re, 0.0 - z.im⟩ else ⟨x + z.re, 0.0 + z.im⟩))
  | _ => .error .notLiteral

def signedValue : Form → Except Fault Literal
  | .leaf l => .ok l
  | .signed negative l => .ok (if negative then negate l else l)
  | _ => .error .notLiteral

def fixed (l : Literal) : Except Fault Literal :=
  if l.isFixed then .ok l else .error .notLiteral

mutual

def Form.value : Form → Except Fault Literal
  | .leaf l => .ok l
  | .signed negative l => .ok (if negative then negate l else l)
  | .sum negative left right => do sumValue negative (← signedValue left) right
  | .list xs => return .list (← values xs)
  | .tuple xs => return .tuple (← values xs)
  | .set xs => return setOf (← memberValues xs)
  | .dict es => return dictOf (← entryValues es)

def values : List Form → Except Fault (List Literal)
  | [] => .ok []
  | x :: xs => do
    let l ← x.value
    let ls ← values xs
    .ok (l :: ls)

/-- Members are added to their set one after the other. -/
def memberValues : List Form → Except Fault (List Literal)
  | [] => .ok []
  | x :: xs => do
    let l ← fixed (← x.value)
    let ls ← memberValues xs
    .ok (l :: ls)

def entryValues : List (Form × Form) → Except Fault (List (Literal × Literal))
  | [] => .ok []
  | (k, x) :: es => do
    let key ← k.value
    let l ← x.value
    let key ← fixed key
    let rest ← entryValues es
    .ok ((key, l) :: rest)

end

/-- The literal that a text is. -/
def read [CharNames] (cs : List Char) : Except Fault Literal :=
  match (tokens? cs).bind formOf? with
  | some x => x.value
  | none => .error .notLiteral

end Dialogue.Literal
