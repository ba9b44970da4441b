import Dialogue.Document.Malformed
import Dialogue.Number.Reader
import Dialogue.Number.Text
import Dialogue.Text.Quote

/-!
# Writing JSON

`write` lays a document out over lines, two columns a level, and leaves all characters but controls
as they are. `compact` writes it on one line in ASCII. Dates have no form in JSON, and whole numbers
of more digits than any reader takes are not written either.
-/

namespace Dialogue.Json

/-- A control character by its short escape or its code, all else as it is. -/
def escapeChar (c : Char) : List Char :=
  match c with
  | '"' => ['\\', '"']
  | '\\' => ['\\', '\\']
  | '\n' => ['\\', 'n']
  | '\r' => ['\\', 'r']
  | '\t' => ['\\', 't']
  | '\x0c' => ['\\', 'f']
  | '\x08' => ['\\', 'b']
  | c => if c.toNat < 0x20 then '\\' :: 'u' :: Text.hexDigits 4 c.toNat else [c]

def unitEscape (u : Nat) : List Char := '\\' :: 'u' :: Text.hexDigits 4 u

/-- A code point in ASCII: beyond it, one escape for each code unit. -/
def asciiCode (c : Nat) : List Char :=
  if c < 0x7f then escapeChar (Char.ofNat c)
  else if c < 0x10000 then unitEscape c
  else unitEscape (0xd800 + (c - 0x10000) / 0x400) ++ unitEscape (0xdc00 + (c - 0x10000) % 0x400)

def quotedCodes (codes : List Nat) : List Char := '"' :: codes.flatMap asciiCode ++ ['"']

def quotedChars (cs : List Char) : List Char := '"' :: cs.flatMap escapeChar ++ ['"']

/-- The parts in which the two layouts differ. -/
structure Layout where
  ascii : Bool
  /-- What stands before an item or a closing bracket at a depth. -/
  newline : Nat → List Char
  comma : List Char
  colon : List Char

def Layout.text (l : Layout) (s : String) : List Char :=
  if l.ascii then quotedCodes (s.toList.map Char.toNat) else quotedChars s.toList

def lined : Layout where
  ascii := false
  newline depth := '\n' :: List.replicate (2 * depth) ' '
  comma := [',']
  colon := [':', ' ']

def oneLine : Layout where
  ascii := true
  newline _ := []
  comma := [',', ' ']
  colon := [':', ' ']

def boolChars (b : Bool) : List Char := (if b then "true" else "false").toList

def scalar (l : Layout) : Scalar → Loose (List Char)
  | .null => .ok "null".toList
  | .bool b => .ok (boolChars b)
  | .int n =>
    if Number.maxDigits < (Number.decimalDigits n.natAbs).length then .error .badValue
    else .ok (Number.intChars n)
  | .float x => .ok (Number.floatChars Number.documentNames x)
  | .text s => .ok (l.text s)
  | .unpaired codes => .ok (quotedCodes codes)
  | .date _ => .error .wrongKind

/-- A key is written as a text, whatever scalar it is. -/
def key (l : Layout) : Scalar → Loose (List Char)
  | .text s => .ok (l.text s)
  | .unpaired codes => .ok (quotedCodes codes)
  | s => return l.text (String.ofList (← scalar l s))

mutual

def chars (l : Layout) (depth : Nat) : Document → Loose (List Char)
  | .scalar s => scalar l s
  | .list [] => .ok ['[', ']']
  | .list (x :: xs) => do
    let body ← itemChars l (depth + 1) (x :: xs)
    .ok ('[' :: body ++ l.newline depth ++ [']'])
  | .map [] => .ok ['{', '}']
  | .map (e :: es) => do
    let body ← entryChars l (depth + 1) (e :: es)
    .ok ('{' :: body ++ l.newline depth ++ ['}'])

def itemChars (l : Layout) (depth : Nat) : List Document → Loose (List Char)
  | [] => .ok []
  | [x] => return l.newline depth ++ (← chars l depth x)
  | x :: y :: xs => do
    let head ← chars l depth x
    let tail ← itemChars l depth (y :: xs)
    .ok (l.newline depth ++ head ++ l.comma ++ tail)

def entryChars (l : Layout) (depth : Nat) : Entries → Loose (List Char)
  | [] => .ok []
  | [(k, x)] => do
    let name ← key l k
    let body ← chars l depth x
    .ok (l.newline depth ++ name ++ l.colon ++ body)
  | (k, x) :: e :: es => do
    let name ← key l k
    let body ← chars l depth x
    let tail ← entryChars l depth (e :: es)
    .ok (l.newline depth ++ name ++ l.colon ++ body ++ l.comma ++ tail)

end

def write (d : Document) : Loose String := return String.ofList (← chars lined 0 d)

def compact (d : Document) : Loose String := return String.ofList (← chars oneLine 0 d)

end Dialogue.Json
