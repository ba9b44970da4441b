import Dialogue.Text.Blank
import Dialogue.Text.Quote

/-!
# Texts in generated code

Free text goes into string literals, block literals that run over lines, and the docstrings of the
generated code. Controls other than tab, line feed and carriage return are written by their codes.
-/

namespace Dialogue.Script

def isControl (c : Char) : Bool :=
  let n := c.toNat
  n ≤ 8 || n == 0xb || n == 0xc || (0xe ≤ n && n ≤ 0x1f) || n == 0x7f

def controlChars (c : Char) : List Char := '\\' :: 'x' :: Text.hexDigits 2 c.toNat

/-- A character between double quotes. -/
def escapeChar (c : Char) : List Char :=
  match c with
  | '\\' => ['\\', '\\']
  | '"' => ['\\', '"']
  | '\r' => ['\\', 'r']
  | '\n' => ['\\', 'n']
  | '\t' => ['\\', 't']
  | c => if isControl c then controlChars c else [c]

def escapeChars (cs : List Char) : List Char := cs.flatMap escapeChar

def stringChars (cs : List Char) : List Char := '"' :: escapeChars cs ++ ['"']

/-- The text as it stands between double quotes. -/
def escaped (s : String) : String := String.ofList (escapeChars s.toList)

/-- A string literal on one line. -/
def string (s : String) : String := String.ofList (stringChars s.toList)

/-! ## Block literals -/

/-- A character of a block literal, where line feeds and tabs stay as they are. -/
def blockChar (c : Char) : List Char :=
  match c with
  | '\\' => ['\\', '\\']
  | '\r' => ['\\', 'r']
  | c => if isControl c then controlChars c else [c]

/-- Three quotes in a row are escaped, fewer are left. -/
def blockBody : List Char → List Char
  | [] => []
  | '"' :: '"' :: '"' :: cs => '\\' :: '"' :: '\\' :: '"' :: '\\' :: '"' :: blockBody cs
  | c :: cs => blockChar c ++ blockBody cs

/-- A backslash before a quote at the end. -/
def guardEnd (cs : List Char) : List Char :=
  if cs.getLast? = some '"' then cs.dropLast ++ ['\\', '"'] else cs

def blockChars (cs : List Char) : List Char :=
  ['"', '"', '"'] ++ guardEnd (blockBody cs) ++ ['"', '"', '"']

/-- A literal between three quotes, over as many lines as the text has. -/
def block (s : String) : String := String.ofList (blockChars s.toList)

/-! ## Docstrings -/

def docChar (c : Char) : List Char :=
  match c with
  | '\\' => ['\\', '\\']
  | '"' => ['\\', '"']
  | c => if isControl c then controlChars c else [c]

def joinWords : List (List Char) → List Char
  | [] => []
  | [w] => w
  | w :: ws => w ++ ' ' :: joinWords ws

def docChars (cs : List Char) : List Char :=
  let flat := (joinWords (Text.words cs)).flatMap docChar
  if flat.isEmpty then "node".toList else flat

/-- The words of a text, on one line, as they stand in a docstring. -/
def docText (s : String) : String := String.ofList (docChars s.toList)

end Dialogue.Script
