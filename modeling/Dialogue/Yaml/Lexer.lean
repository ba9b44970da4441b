import Dialogue.Yaml.Token

/-!
# From text to YAML tokens

Indentation opens and closes blocks, so tokens come with marks for the starts and ends of blocks. A
mapping key is recognised only at its colon: until then its place is kept as a possible key, and the
tokens that announce it are put in there afterwards.
-/

namespace Dialogue.Yaml

/-- A place where a key may have started. -/
structure PossibleKey where
  /-- The number of tokens before it. -/
  place : Nat
  /-- In a block, something that stands where keys stand has to be one. -/
  required : Bool
  index : Nat
  line : Nat
  column : Nat

/-- Keys take one line and no more than this many characters. -/
def longestKey : Nat := 1024

structure Lexer where
  cursor : Cursor
  /-- The tokens read, the latest first. -/
  tokens : List Token := []
  count : Nat := 0
  /-- The columns of the open blocks, the innermost first. -/
  indents : List Int := []
  /-- For each open flow collection and for the block around them, the possible key. -/
  keys : List (Option PossibleKey) := [none]
  mayStartKey : Bool := true

namespace Lexer

def indent (l : Lexer) : Int := l.indents.headD (-1)

def inFlow (l : Lexer) : Bool := 1 < l.keys.length

def column (l : Lexer) : Int := l.cursor.column

def push (l : Lexer) (t : Token) : Lexer := { l with tokens := t :: l.tokens, count := l.count + 1 }

def setMayStartKey (l : Lexer) (b : Bool) : Lexer := { l with mayStartKey := b }

/-- Puts a token in after the first `place` tokens. -/
def insertAt (l : Lexer) (place : Nat) (t : Token) : Lexer :=
  let later := l.count - place
  { l with tokens := l.tokens.take later ++ t :: l.tokens.drop later, count := l.count + 1 }

abbrev Step := Except Fault Lexer

def fail {α : Type} : Except Fault α := .error .notYaml

/-- Runs a reading at the cursor. -/
def scan (l : Lexer) (s : Scan α) : Except Fault (α × Lexer) := do
  let (a, cursor) ← s.run l.cursor
  return (a, { l with cursor })

/-- Closes the blocks that lie further in than a column. -/
def closeBlocks (l : Lexer) (column : Int) : Lexer :=
  if l.inFlow then l
  else
    let closed := l.indents.takeWhile (column < ·)
    { l with
      indents := l.indents.dropWhile (column < ·)
      tokens := closed.map (fun _ => Token.blockEnd) ++ l.tokens
      count := l.count + closed.length }

/-- Opens a block at a column further in than the innermost one; tells whether it did. -/
def openBlock (l : Lexer) (column : Int) : Bool × Lexer :=
  if l.indent < column then (true, { l with indents := column :: l.indents }) else (false, l)

/-- Drops the possible keys that lie too far back. -/
def dropStaleKeys (l : Lexer) : Step :=
  let stale (k : PossibleKey) : Bool :=
    k.line != l.cursor.line || longestKey < l.cursor.index - k.index
  if l.keys.any fun k => k.any fun k => stale k && k.required then fail
  else .ok { l with keys := l.keys.map fun k => k.filter fun k => !stale k }

/-- Gives up the possible key of the innermost collection. -/
def dropKey (l : Lexer) : Step :=
  match l.keys with
  | [] => fail
  | k :: ks => if k.any (·.required) then fail else .ok { l with keys := none :: ks }

/-- Keeps the place as one where a key may start. -/
def saveKey (l : Lexer) : Step :=
  if !l.mayStartKey then .ok l
  else do
    let l ← l.dropKey
    let key : PossibleKey := {
      place := l.count
      required := !l.inFlow && l.indent == l.column
      index := l.cursor.index
      line := l.cursor.line
      column := l.cursor.column }
    return { l with keys := some key :: l.keys.drop 1 }

def skips (l : Lexer) (n : Nat) : Except Fault Lexer := return (← l.scan (Scan.skips n)).2

/-- A token that may start a key and is read by `s`. -/
def keyToken (l : Lexer) (s : Scan Token) : Step := do
  let l ← l.saveKey
  let (t, l) ← (l.setMayStartKey false).scan s
  return l.push t

def documentMark (l : Lexer) (t : Token) : Step := do
  let l ← (l.closeBlocks (-1)).dropKey
  let l ← (l.setMayStartKey false).skips 3
  return l.push t

def flowStart (l : Lexer) (t : Token) : Step := do
  let l ← l.saveKey
  let l ← { l with keys := none :: l.keys, mayStartKey := true }.skips 1
  return l.push t

def flowEnd (l : Lexer) (t : Token) : Step := do
  if !l.inFlow then fail
  else
    let l ← l.dropKey
    let l ← { l with keys := l.keys.drop 1, mayStartKey := false }.skips 1
    return l.push t

def flowComma (l : Lexer) : Step := do
  let l ← (l.setMayStartKey true).dropKey
  return (← l.skips 1).push .comma

/-- An item mark or a key mark, which in a block may open one. -/
def blockMark (l : Lexer) (opening mark : Token) (keyMayFollow : Bool) : Step := do
  let l ←
    if l.inFlow then pure l
    else if !l.mayStartKey then fail
    else
      let (opened, l) := l.openBlock l.column
      pure (if opened then l.push opening else l)
  let l ← (l.setMayStartKey keyMayFollow).dropKey
  return (← l.skips 1).push mark

/-- The colon after a possible key: the key's announcement goes in where it started. -/
def simpleKey (l : Lexer) (k : PossibleKey) : Lexer :=
  let l := { l with keys := none :: l.keys.drop 1, mayStartKey := false }.insertAt k.place .key
  if l.inFlow then l
  else
    let (opened, l) := l.openBlock k.column
    if opened then l.insertAt k.place .mapStart else l

/-- The colon after an explicit key, or one without any. -/
def explicitValue (l : Lexer) : Step :=
  if l.inFlow then (l.setMayStartKey false).dropKey
  else if !l.mayStartKey then fail
  else
    let (opened, l) := l.openBlock l.column
    ((if opened then l.push .mapStart else l).setMayStartKey true).dropKey

def valueMark (l : Lexer) : Step := do
  let l ← match l.keys.head? with
    | some (some k) => pure (l.simpleKey k)
    | _ => l.explicitValue
  return (← l.skips 1).push .value

def blockScalar (l : Lexer) (folded : Bool) : Step := do
  let l ← (l.setMayStartKey true).dropKey
  let (t, l) ← l.scan (Scan.blockScalar folded l.indent)
  return l.push t

def plainScalar (l : Lexer) : Step := do
  let l ← l.saveKey
  let words := Scan.plainFrom l.inFlow (l.indent + 1) (l.cursor.rest.length + 1) [] false
  let ((cs, broke), l) ← l.scan words
  return (l.setMayStartKey broke).push (.scalar (codesOf cs) true)

/-- Passes blanks, comments and line breaks; a line break in a block lets a key start. -/
def toNextToken (l : Lexer) : (fuel : Nat) → Step
  | 0 => .ok l
  | fuel + 1 => do
    let (brk, l) ← l.scan do
      Scan.spaces
      Scan.comment
      Scan.lineBreak
    if brk.isEmpty then return l
    else toNextToken { l with mayStartKey := l.mayStartKey || !l.inFlow } fuel

/-- Whether a plain scalar can start with these characters. -/
def startsPlain (inFlow : Bool) (a next : Char) : Bool :=
  !(isBlankOrEnd a || "-?:,[]\x7b\x7d#&*!|>'\"%@`".toList.contains a) ||
    (!isBlankOrEnd next && (a == '-' || (!inFlow && (a == '?' || a == ':'))))

/-- Reads one token, with the marks that come before it; none at the end of the text. -/
def next (l : Lexer) : Except Fault (Option Lexer) := do
  let l ← l.toNextToken (l.cursor.rest.length + 1)
  let l ← l.dropStaleKeys
  let l := l.closeBlocks l.column
  let a := l.cursor.peek
  let next := l.cursor.peekAt 1
  let atLineStart := l.cursor.column = 0
  let mark := isBlankOrEnd (l.cursor.peekAt 3)
  if a = Cursor.endMark then return none
  else if a = '%' ∧ atLineStart then
    let l ← (l.closeBlocks (-1)).dropKey
    let (t, l) ← (l.setMayStartKey false).scan Scan.directive
    return l.push t
  else if atLineStart ∧ l.cursor.rest.take 3 = ['-', '-', '-'] ∧ mark then
    return ← l.documentMark .documentStart
  else if atLineStart ∧ l.cursor.rest.take 3 = ['.', '.', '.'] ∧ mark then
    return ← l.documentMark .documentEnd
  else if a = '[' then return ← l.flowStart .flowListStart
  else if a = '{' then return ← l.flowStart .flowMapStart
  else if a = ']' then return ← l.flowEnd .flowListEnd
  else if a = '}' then return ← l.flowEnd .flowMapEnd
  else if a = ',' then return ← l.flowComma
  else if a = '-' ∧ isBlankOrEnd next then return ← l.blockMark .listStart .item true
  else if a = '?' ∧ (l.inFlow ∨ isBlankOrEnd next) then
    return ← l.blockMark .mapStart .key (!l.inFlow)
  else if a = ':' ∧ (l.inFlow ∨ isBlankOrEnd next) then return ← l.valueMark
  else if a = '*' then return ← l.keyToken (Token.alias <$> Scan.anchorName)
  else if a = '&' then return ← l.keyToken (Token.anchor <$> Scan.anchorName)
  else if a = '!' then return ← l.keyToken (Token.tag <$> Scan.tagName)
  else if a = '|' ∧ !l.inFlow then return ← l.blockScalar false
  else if a = '>' ∧ !l.inFlow then return ← l.blockScalar true
  else if a = '\'' then return ← l.keyToken (Scan.quotedScalar false)
  else if a = '"' then return ← l.keyToken (Scan.quotedScalar true)
  else if startsPlain l.inFlow a next then return ← l.plainScalar
  else fail

def run : (fuel : Nat) → Lexer → Except Fault (List Token)
  | 0, _ => fail
  | fuel + 1, l => do
    match ← l.next with
    | some l => run fuel l
    | none =>
      let l ← l.toNextToken (l.cursor.rest.length + 1)
      let l ← ((← l.dropStaleKeys).closeBlocks (-1)).dropKey
      return (l.push .textEnd).tokens.reverse

end Lexer

/-- The tokens of a text. A mark of byte order at its start is passed over. -/
def tokens (cs : List Char) : Except Fault (List Token) :=
  if !cs.all isReadable then .error .notYaml
  else
    let cursor : Cursor := ⟨cs, 0, 0, 0⟩
    let start := if cs.head? = some '\ufeff' then ⟨cs.drop 1, 1, 0, 0⟩ else cursor
    Lexer.run (cs.length + 2) { cursor := start }

end Dialogue.Yaml
