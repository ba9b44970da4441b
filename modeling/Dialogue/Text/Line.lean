import Dialogue.Text.Blank

/-!
# Lines

Splitting a text into lines, and the column work done on them: expanding tabs, taking away the
margin that all lines share, and indenting.
-/

namespace Dialogue.Text

/-- Characters that end a line; a carriage return and a line feed together end one line. -/
def isLineBreak (c : Char) : Bool :=
  let n := c.toNat
  (10 ≤ n && n ≤ 13) || (0x1c ≤ n && n ≤ 0x1e) || n == 0x85 || n == 0x2028 || n == 0x2029

/-- The lines of a text without their ends; `line` is the line in hand. A final line end does
not open another line. -/
def linesFrom (line : List Char) : List Char → List (List Char)
  | [] => if line.isEmpty then [] else [line.reverse]
  | '\r' :: '\n' :: cs => line.reverse :: linesFrom [] cs
  | c :: cs => if isLineBreak c then line.reverse :: linesFrom [] cs else linesFrom (c :: line) cs

def lines (cs : List Char) : List (List Char) := linesFrom [] cs

/-- The pieces between line feeds, the last one included even when it is empty. -/
def feedLinesFrom (line : List Char) : List Char → List (List Char)
  | [] => [line.reverse]
  | c :: cs =>
    if c = '\n' then line.reverse :: feedLinesFrom [] cs else feedLinesFrom (c :: line) cs

def feedLines (cs : List Char) : List (List Char) := feedLinesFrom [] cs

def joinFeed : List (List Char) → List Char
  | [] => []
  | [l] => l
  | l :: ls => l ++ '\n' :: joinFeed ls

/-- Every line end written as a line feed. -/
def feedOnly : List Char → List Char
  | [] => []
  | '\r' :: '\n' :: cs => '\n' :: feedOnly cs
  | c :: cs => (if c = '\r' then '\n' else c) :: feedOnly cs

/-- Tabs written as spaces up to the next multiple of `width`; `column` is the column in hand. -/
def expandTabsFrom (width column : Nat) : List Char → List Char
  | [] => []
  | '\t' :: cs =>
    let n := width - column % width
    List.replicate n ' ' ++ expandTabsFrom width (column + n) cs
  | c :: cs => c :: expandTabsFrom width (if c = '\n' ∨ c = '\r' then 0 else column + 1) cs

def expandTabs (width : Nat) (cs : List Char) : List Char := expandTabsFrom width 0 cs

def isMarginChar (c : Char) : Bool := c == ' ' || c == '\t'

/-- The longest common beginning of two lists. -/
def commonStart [DecidableEq α] : List α → List α → List α
  | a :: as, b :: bs => if a = b then a :: commonStart as bs else []
  | _, _ => []

/-- The blanks that begin every line with something else in it. -/
def margin (ls : List (List Char)) : List Char :=
  match (ls.filter fun l => !l.all isMarginChar).map fun l => l.takeWhile isMarginChar with
  | [] => []
  | m :: ms => ms.foldl commonStart m

/-- Lines of blanks alone are emptied, and all others lose the margin they share. -/
def dedent (cs : List Char) : List Char :=
  let ls := feedLines cs
  let m := margin ls
  joinFeed (ls.map fun l => if l.all isMarginChar then [] else l.drop m.length)

/-- Lines that hold more than blanks, moved right by `indent`. -/
def indentLines (indent : List Char) (ls : List (List Char)) : List (List Char) :=
  ls.map fun l => if l.all isBlank then l else indent ++ l

end Dialogue.Text
