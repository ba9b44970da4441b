import Dialogue.Document.Malformed
import Dialogue.Json.Reader

/-!
# A cursor over YAML text

A cursor stands before the rest of a text and knows its place. Behind the end it sees the null
character, which no readable text contains.
-/

namespace Dialogue.Yaml

inductive Fault where
  /-- The text breaks the rules of the format. -/
  | notYaml
  /-- The text is well formed, but a scalar in it has no value. -/
  | malformed (m : Malformed)
deriving DecidableEq, Repr

structure Cursor where
  rest : List Char
  index : Nat := 0
  line : Nat := 0
  column : Nat := 0

namespace Cursor

def endMark : Char := '\x00'

def peekAt (c : Cursor) (n : Nat) : Char := c.rest.getD n endMark

def peek (c : Cursor) : Char := c.peekAt 0

end Cursor

def isBreak (c : Char) : Bool :=
  c == '\n' || c == '\r' || c == '\x85' || c == '\u2028' || c == '\u2029'

def isBreakOrEnd (c : Char) : Bool := isBreak c || c == Cursor.endMark

/-- A line break, a space, or the end of the text. -/
def isGap (c : Char) : Bool := isBreakOrEnd c || c == ' '

/-- A gap or a tab: what separates tokens. -/
def isBlankOrEnd (c : Char) : Bool := isGap c || c == '\t'

def isWordChar (c : Char) : Bool := c.isAlphanum || c == '-' || c == '_'

/-- Characters that may stand in a text at all. -/
def isReadable (c : Char) : Bool :=
  let n := c.toNat
  n == 9 || n == 10 || n == 13 || (0x20 ≤ n && n ≤ 0x7e) || n == 0x85 ||
    (0xa0 ≤ n && n ≤ 0xd7ff) || (0xe000 ≤ n && n ≤ 0xfffd) || 0x10000 ≤ n

/-- Reading at a cursor. -/
abbrev Scan := StateT Cursor (Except Fault)

namespace Scan

def fail {α : Type} : Scan α := throw .notYaml

def peek : Scan Char := return (← get).peek

def peekAt (n : Nat) : Scan Char := return (← get).peekAt n

/-- The next `n` characters, fewer at the end of the text. -/
def ahead (n : Nat) : Scan (List Char) := return (← get).rest.take n

/-- Passes one character. A mark of byte order takes no column. -/
def skip : Scan Unit := modify fun c =>
  match c.rest with
  | [] => c
  | a :: rest =>
    let index := c.index + 1
    if (isBreak a && a != '\r') || (a == '\r' && rest.head? != some '\n') then
      ⟨rest, index, c.line + 1, 0⟩
    else ⟨rest, index, c.line, if a = '\ufeff' then c.column else c.column + 1⟩

def skips : Nat → Scan Unit
  | 0 => pure ()
  | n + 1 => do skip; skips n

/-- Takes the characters that satisfy `p`. -/
def takeWhile (p : Char → Bool) : Scan (List Char) := do
  let cs := (← get).rest.takeWhile p
  skips cs.length
  return cs

/-- Passes a line break and tells how it reads: as a line feed, or as the separator it is. -/
def lineBreak : Scan (List Char) := do
  let a ← peek
  if a = '\r' ∨ a = '\n' ∨ a = '\x85' then
    if (← ahead 2) = ['\r', '\n'] then skips 2 else skip
    return ['\n']
  else if a = '\u2028' ∨ a = '\u2029' then
    skip
    return [a]
  else return []

/-- Passes a comment, if one stands here. -/
def comment : Scan Unit := do
  if (← peek) = '#' then
    let _ ← takeWhile (!isBreak ·)

def spaces : Scan Unit := do
  let _ ← takeWhile (· == ' ')

/-- Whether a line of document marks stands here. -/
def atDocumentMark : Scan Bool := do
  let mark ← ahead 3
  return (mark = ['-', '-', '-'] ∨ mark = ['.', '.', '.']) ∧ isBlankOrEnd (← peekAt 3)

/-- The rest of a line that may hold nothing but a comment. -/
def emptyRest : Scan Unit := do
  spaces
  comment
  if !isBreakOrEnd (← peek) then fail
  let _ ← lineBreak

end Scan
end Dialogue.Yaml
