import Dialogue.Literal.Basic
import Dialogue.Number.Reader
import Dialogue.Text.Line
import Dialogue.Text.Quote

/-!
# Tokens of literals

Numbers, strings, words and marks, as far as literals are made of them. Blanks and comments separate
tokens; line ends count only outside brackets, and there a line must not be indented.
-/

namespace Dialogue.Literal

/-- The names that characters can be given by in a string. -/
class CharNames where
  find? : String → Option Char

/-- Unless a table is given, characters have no names. -/
instance noCharNames : CharNames := ⟨fun _ => none⟩

inductive Token where
  /-- A number, text or bytes. -/
  | leaf (l : Literal)
  | word (s : String)
  | mark (c : Char)
  | lineEnd
deriving Inhabited

/-! ## Numbers -/

def baseOf? : List Char → Option (Nat × List Char)
  | '0' :: c :: cs =>
    if c = 'x' ∨ c = 'X' then some (16, cs)
    else if c = 'o' ∨ c = 'O' then some (8, cs)
    else if c = 'b' ∨ c = 'B' then some (2, cs)
    else none
  | _ => none

def digitIn? (base : Nat) (c : Char) : Option Nat :=
  let v? := if c.isDigit then some (c.toNat - 0x30)
    else if 'a' ≤ c ∧ c ≤ 'f' then some (c.toNat - 0x61 + 10)
    else if 'A' ≤ c ∧ c ≤ 'F' then some (c.toNat - 0x41 + 10)
    else none
  v?.filter (· < base)

/-- A whole number in a base, after the mark of the base and perhaps an underscore. -/
def basedInt? (base : Nat) (cs : List Char) : Option Nat := do
  let body := match cs with
    | '_' :: rest => rest
    | _ => cs
  let ds ← Number.digitRun? (digitIn? base) body
  if ds.isEmpty then none else some (Number.natOfDigits base ds)

/-- Zeros may stand in front of zero alone. -/
def decimalInt? (cs : List Char) : Option Nat := do
  let ds ← Number.digitRun? Number.asciiDigit? cs
  let n := Number.natOfDigits 10 ds
  if ds.isEmpty then none
  else if ds.head? = some 0 then (if n = 0 then some 0 else none)
  else if Number.maxDigits < ds.length then none
  else some n

def floatOf? (cs : List Char) : Option Float :=
  (Number.decimalOf? Number.asciiDigit? cs).map Decimal.toFloat

def number? (cs : List Char) : Option Literal :=
  match baseOf? cs with
  | some (base, body) => (basedInt? base body).map fun n => .int n
  | none =>
    if cs.getLast? = some 'j' ∨ cs.getLast? = some 'J' then
      (floatOf? cs.dropLast).map fun x => .complex ⟨0.0, x⟩
    else
      match decimalInt? cs with
      | some n => some (.int n)
      | none => if cs.all Char.isDigit then none else (floatOf? cs).map .float

def isWordChar (c : Char) : Bool := c.isAlphanum || c == '_'

def isSign (c : Char) : Bool := c == '+' || c == '-'

/-- The characters that belong to a number, with the sign of an exponent where there may be one;
`afterMark` tells that the mark of an exponent was just met. -/
def numberRun (signs afterMark : Bool) : List Char → List Char × List Char
  | [] => ([], [])
  | c :: cs =>
    if isWordChar c || c == '.' || (signs && afterMark && isSign c) then
      let (run, rest) := numberRun signs (c == 'e' || c == 'E') cs
      (c :: run, rest)
    else ([], c :: cs)

/-! ## Strings -/

/-- How a string is marked in front of its quote. -/
structure StringKind where
  raw : Bool := false
  bytes : Bool := false

def stringKind? (mark : List Char) : Option StringKind :=
  match String.ofList (mark.map Char.toLower) with
  | "" | "u" => some {}
  | "r" => some { raw := true }
  | "b" => some { bytes := true }
  | "br" | "rb" => some { raw := true, bytes := true }
  | _ => none

/-- The characters up to the closing quote, which is `quote` once or three times in a row, and what
follows it. What a backslash precedes closes nothing. `run` counts the quotes just met. -/
def stringRun (quote : Char) (long : Bool) (run : Nat) (body : List Char) :
    List Char → Option (List Char × List Char)
  | [] => none
  | c :: cs =>
    if c = quote then
      if !long then some (body.reverse, cs)
      else if run = 2 then some ((body.drop 2).reverse, cs)
      else stringRun quote long (run + 1) (c :: body) cs
    else if c = '\\' then
      match cs with
      | [] => none
      | d :: rest => stringRun quote long 0 (d :: c :: body) rest
    else if c = '\n' && !long then none
    else stringRun quote long 0 (c :: body) cs

def simpleEscape? : Char → Option Nat
  | '\\' => some 0x5c
  | '\'' => some 0x27
  | '"' => some 0x22
  | 'a' => some 7
  | 'b' => some 8
  | 'f' => some 12
  | 'n' => some 10
  | 'r' => some 13
  | 't' => some 9
  | 'v' => some 11
  | _ => none

def hexLength? (bytes : Bool) : Char → Option Nat
  | 'x' => some 2
  | 'u' => if bytes then none else some 4
  | 'U' => if bytes then none else some 8
  | _ => none

/-- A code point of so many hexadecimal digits. -/
def hexCode? (length : Nat) (cs : List Char) : Option Nat := do
  let ds ← (cs.take length).mapM (digitIn? 16)
  let n := Number.natOfDigits 16 ds
  if ds.length = length ∧ n ≤ 0x10ffff then some n else none

def isOctal (c : Char) : Bool := '0' ≤ c && c ≤ '7'

def octalRun (cs : List Char) : List Char := (cs.take 3).takeWhile isOctal

def octalCode (bytes : Bool) (run : List Char) : Nat :=
  let n := Number.natOfDigits 8 (run.map fun c => c.toNat - 0x30)
  if bytes then n % 0x100 else n

/-- The name in braces that a text starts with, and what follows it. -/
def bracedName? : List Char → Option (String × List Char)
  | '{' :: cs =>
    match cs.span (· != '}') with
    | (name, '}' :: rest) => if name.isEmpty then none else some (String.ofList name, rest)
    | _ => none
  | _ => none

variable [CharNames]

/-- The code points that the body of a string stands for. An unknown escape stands for itself. -/
def unescape (bytes : Bool) : (fuel : Nat) → List Char → Option (List Nat)
  | 0, _ => none
  | _, [] => some []
  | fuel + 1, '\\' :: c :: cs =>
    if c = '\n' then unescape bytes fuel cs
    else
      match simpleEscape? c, hexLength? bytes c with
      | some n, _ => (unescape bytes fuel cs).map (n :: ·)
      | none, some length => do
        let n ← hexCode? length cs
        let rest ← unescape bytes fuel (cs.drop length)
        some (n :: rest)
      | none, none =>
        if isOctal c then
          let run := octalRun (c :: cs)
          (unescape bytes fuel ((c :: cs).drop run.length)).map (octalCode bytes run :: ·)
        else if c = 'N' && !bytes then do
          let (name, cs) ← bracedName? cs
          let char ← CharNames.find? name
          let rest ← unescape bytes fuel cs
          some (char.toNat :: rest)
        else (unescape bytes fuel (c :: cs)).map (0x5c :: ·)
  | fuel + 1, c :: cs => (unescape bytes fuel cs).map (c.toNat :: ·)

def stringLiteral? (kind : StringKind) (body : List Char) : Option Literal := do
  let codes ← if kind.raw then some (body.map Char.toNat)
    else unescape kind.bytes (body.length + 1) body
  if !kind.bytes then some (.text codes)
  else if body.all fun c => c.toNat < 0x80 then some (.bytes codes)
  else none

/-- A string from its opening quote on. -/
def string? (kind : StringKind) : List Char → Option (Literal × List Char)
  | [] => none
  | q :: cs =>
    let (long, start) := match cs with
      | a :: b :: rest => if a = q ∧ b = q then (true, rest) else (false, cs)
      | _ => (false, cs)
    do
      let (body, rest) ← stringRun q long 0 [] start
      let l ← stringLiteral? kind body
      some (l, rest)

/-! ## Lines -/

/-- The column at which a line starts, and the line from there. The first backslash that continues
the line after blanks settles the column. -/
def lineStart (column settled : Nat) : List Char → Option (Nat × List Char)
  | ' ' :: cs => lineStart (column + 1) settled cs
  | '\t' :: cs => lineStart (column + 1) settled cs
  | '\x0c' :: cs => lineStart 0 settled cs
  | '\\' :: '\n' :: c :: cs => lineStart column (if settled = 0 then column else settled) (c :: cs)
  | '\\' :: _ => none
  | cs => some (if settled = 0 then column else settled, cs)

def dropLine (cs : List Char) : List Char := cs.dropWhile (· != '\n')

/-- No more brackets than these may be open. -/
def maxDepth : Nat := 200

def isOpening (c : Char) : Bool := c == '(' || c == '[' || c == '{'
def isClosing (c : Char) : Bool := c == ')' || c == ']' || c == '}'
def isMark (c : Char) : Bool := isOpening c || isClosing c || ",:+-".toList.contains c

def startsNumber : List Char → Bool
  | '.' :: c :: _ => c.isDigit
  | c :: _ => c.isDigit
  | [] => false

/-- A number, string, word or mark, and what follows it. -/
def token? (cs : List Char) : Option (Token × List Char) :=
  match cs with
  | [] => none
  | c :: rest =>
    if startsNumber cs then
      let (run, rest) := numberRun (baseOf? cs).isNone false cs
      (number? run).map fun l => (.leaf l, rest)
    else
      let (word, rest') := (cs.takeWhile isWordChar, cs.dropWhile isWordChar)
      match rest'.head?.any (fun q => q == '\'' || q == '"'), stringKind? word with
      | true, some kind => (string? kind rest').map fun s => (.leaf s.1, s.2)
      | _, _ =>
        if !word.isEmpty then some (.word (String.ofList word), rest')
        else if isMark c then some (.mark c, rest)
        else none

/-- The tokens of a text in which `depth` brackets are open; `fresh` tells that a line starts. -/
def tokensFrom : (fuel : Nat) → (fresh : Bool) → (depth : Nat) → List Char → Option (List Token)
  | 0, _, _, _ => none
  | fuel + 1, true, depth, cs => do
    let (column, cs) ← lineStart 0 0 cs
    match cs with
    | [] => some []
    | '\n' :: rest => tokensFrom fuel true depth rest
    | '#' :: _ => tokensFrom fuel true depth ((dropLine cs).drop 1)
    | _ => if column = 0 then tokensFrom fuel false depth cs else none
  | fuel + 1, false, depth, cs =>
    match cs with
    | [] => some [.lineEnd]
    | '#' :: _ => tokensFrom fuel false depth (dropLine cs)
    | '\\' :: '\n' :: c :: rest => tokensFrom fuel false depth (c :: rest)
    | '\n' :: rest =>
      if depth = 0 then (tokensFrom fuel true depth rest).map (.lineEnd :: ·)
      else tokensFrom fuel false depth rest
    | c :: rest =>
      if c = ' ' ∨ c = '\t' ∨ c = '\x0c' then tokensFrom fuel false depth rest
      else do
        let (t, rest) ← token? cs
        let after ← if isOpening c then (if depth < maxDepth then some (depth + 1) else none)
          else if isClosing c then (if depth = 0 then none else some (depth - 1))
          else some depth
        let ts ← tokensFrom fuel false after rest
        some (t :: ts)

/-- The tokens of a text, if it has no others than literals are made of. -/
def tokens? (cs : List Char) : Option (List Token) :=
  let cs := Text.feedOnly cs
  if cs.contains '\x00' then none else tokensFrom (2 * cs.length + 2) true 0 cs

end Dialogue.Literal
