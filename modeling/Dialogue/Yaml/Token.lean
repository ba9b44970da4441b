import Dialogue.Yaml.Cursor

/-!
# YAML tokens

The tokens of a text, and the reading of those that have an inside: scalars, anchors, tags and
directives. Scalars are lists of code points, since an escape may name any of them.
-/

namespace Dialogue.Yaml

/-- A tag as written: the handle of its first part, if it has one, and the rest. -/
structure TagName where
  handle : Option String
  suffix : String

inductive Token where
  | version (major : Nat)
  | tagHandle (handle start : String)
  | unknownDirective
  | documentStart
  | documentEnd
  | listStart
  | mapStart
  | blockEnd
  | flowListStart
  | flowMapStart
  | flowListEnd
  | flowMapEnd
  | item
  | comma
  | key
  | value
  | alias (name : String)
  | anchor (name : String)
  | tag (name : TagName)
  | scalar (codes : List Nat) (plain : Bool)
  | textEnd

def codesOf (cs : List Char) : List Nat := cs.map Char.toNat

namespace Scan

/-! ## Anchors, tags, directives -/

def word : Scan String := do
  let cs ← takeWhile isWordChar
  if cs.isEmpty then fail
  return String.ofList cs

/-- The name of an anchor or an alias, after its mark. -/
def anchorName : Scan String := do
  skip
  let name ← word
  let a ← peek
  if isBlankOrEnd a || "?:,]\x7d%@`".toList.contains a then return name else fail

/-- A handle: an exclamation mark, or a word between two. -/
def tagHandle : Scan String := do
  if (← peek) != '!' then fail
  skip
  if (← peek) = ' ' then return "!"
  let name ← takeWhile isWordChar
  if (← peek) != '!' then fail
  skip
  return String.ofList ('!' :: name ++ ['!'])

def isUriChar (c : Char) : Bool := c.isAlphanum || "-;/?:@&=+$,_.!~*'()[]".toList.contains c

def hexByte : Scan Nat := do
  match ← ahead 3 with
  | ['%', a, b] =>
    match Json.hexValue? a, Json.hexValue? b with
    | some x, some y =>
      skips 3
      return 16 * x + y
    | _, _ => fail
  | _ => fail

/-- Escaped bytes, as many as stand in a row. -/
def hexBytes : (fuel : Nat) → Scan (List Nat)
  | 0 => return []
  | fuel + 1 => do
    if (← peek) = '%' then
      let b ← hexByte
      return b :: (← hexBytes fuel)
    else return []

def uriFrom : (fuel : Nat) → Scan (List Char)
  | 0 => return []
  | fuel + 1 => do
    let cs ← takeWhile isUriChar
    if (← peek) = '%' then
      let bytes ← hexBytes fuel
      match String.fromUTF8? (ByteArray.mk (bytes.map Nat.toUInt8).toArray) with
      | some s => return cs ++ s.toList ++ (← uriFrom fuel)
      | none => fail
    else return cs

def uri : Scan String := do
  let cs ← uriFrom ((← get).rest.length + 1)
  if cs.isEmpty then fail
  return String.ofList cs

def tagName : Scan TagName := do
  let next ← peekAt 1
  let name ←
    if next = '<' then do
      skips 2
      let suffix ← uri
      if (← peek) != '>' then fail
      skip
      pure ⟨none, suffix⟩
    else if isBlankOrEnd next then do
      skip
      pure ⟨none, "!"⟩
    else do
      let body := ((← get).rest.drop 1).takeWhile (!isGap ·)
      let handle ← if body.contains '!' then tagHandle else do skip; pure "!"
      let suffix ← uri
      pure (⟨some handle, suffix⟩ : TagName)
  if isGap (← peek) then return name else fail

def directiveNumber : Scan Nat := do
  let cs ← takeWhile Char.isDigit
  if cs.isEmpty then fail
  return Json.digitsValue cs

def directive : Scan Token := do
  skip
  let name ← word
  if !isGap (← peek) then fail
  let token ←
    if name = "YAML" then do
      spaces
      let major ← directiveNumber
      if (← peek) != '.' then fail
      skip
      let _ ← directiveNumber
      if !isGap (← peek) then fail
      pure (Token.version major)
    else if name = "TAG" then do
      spaces
      let handle ← tagHandle
      if (← peek) != ' ' then fail
      spaces
      let start ← uri
      if !isGap (← peek) then fail
      pure (Token.tagHandle handle start)
    else do
      let _ ← takeWhile (!isBreak ·)
      pure Token.unknownDirective
  emptyRest
  return token

/-! ## Block scalars -/

/-- What becomes of the line breaks at the end of a block scalar. -/
inductive Chomp where
  | strip
  | clip
  | keep
deriving DecidableEq

def chomp? : Scan (Option Chomp) := do
  match ← peek with
  | '+' => skip; return some .keep
  | '-' => skip; return some .strip
  | _ => return none

def increment? : Scan (Option Nat) := do
  let a ← peek
  if a = '0' then fail
  if a.isDigit then
    skip
    return some (a.toNat - 0x30)
  else return none

/-- The indicators of a block scalar, in either order. -/
def blockHeader : Scan (Chomp × Option Nat) := do
  let first ← chomp?
  let increment ← increment?
  let chomp ← match first, increment with
    | none, some _ => chomp?
    | _, _ => pure first
  if !isGap (← peek) then fail
  return (chomp.getD .clip, increment)

/-- Line breaks and the indentation before and between them. -/
def leadingBreaks : (fuel : Nat) → (deepest : Nat) → Scan (List (List Char) × Nat)
  | 0, deepest => return ([], deepest)
  | fuel + 1, deepest => do
    let a ← peek
    if a = ' ' then
      skip
      leadingBreaks fuel (max deepest (← get).column)
    else if isBreak a then
      let b ← lineBreak
      let (bs, deepest) ← leadingBreaks fuel deepest
      return (b :: bs, deepest)
    else return ([], deepest)

/-- Passes spaces, but not beyond a column. -/
def spacesUpTo (indent : Nat) : (fuel : Nat) → Scan Unit
  | 0 => pure ()
  | fuel + 1 => do
    if (← get).column < indent ∧ (← peek) = ' ' then
      skip
      spacesUpTo indent fuel

def blockBreaks (indent : Nat) : (fuel : Nat) → Scan (List (List Char))
  | 0 => return []
  | fuel + 1 => do
    spacesUpTo indent indent
    if isBreak (← peek) then
      let b ← lineBreak
      return b :: (← blockBreaks indent fuel)
    else return []

def atBlockLine (indent : Nat) : Scan Bool := do
  return (← get).column = indent ∧ (← peek) != Cursor.endMark

/-- The lines of a block scalar, with the last line break and the breaks that follow it apart. -/
def blockLines (folded : Bool) (indent : Nat) :
    (fuel : Nat) → Scan (List Char × List Char × List (List Char))
  | 0 => return ([], [], [])
  | fuel + 1 => do
    let startsInk := !(← peek) == ' ' && !(← peek) == '\t'
    let line ← takeWhile (!isBreak ·)
    let lineEnd ← lineBreak
    let breaks ← blockBreaks indent fuel
    if ← atBlockLine indent then
      let a ← peek
      let joint :=
        if folded ∧ lineEnd = ['\n'] ∧ startsInk ∧ a ≠ ' ' ∧ a ≠ '\t' then
          if breaks.isEmpty then [' '] else []
        else lineEnd
      let (text, tail) ← blockLines folded indent fuel
      return (line ++ joint ++ breaks.flatten ++ text, tail)
    else return (line, lineEnd, breaks)

/-- A block scalar, after its mark; `parent` is the indentation of what it belongs to. -/
def blockScalar (folded : Bool) (parent : Int) : Scan Token := do
  skip
  let (chomp, increment) ← blockHeader
  emptyRest
  let least := (max (parent + 1) 1).toNat
  let fuel := (← get).rest.length + 1
  let (breaks, indent) ← match increment with
    | none => do
      let (breaks, deepest) ← leadingBreaks fuel 0
      pure (breaks, max least deepest)
    | some n => do
      let indent := least + n - 1
      pure (← blockBreaks indent fuel, indent)
  let (text, lineEnd, trailing) ←
    if ← atBlockLine indent then do
      let (text, tail) ← blockLines folded indent fuel
      pure (breaks.flatten ++ text, tail)
    else pure ([], [], breaks)
  let tail := match chomp with
    | .strip => []
    | .clip => lineEnd
    | .keep => lineEnd ++ trailing.flatten
  return .scalar (codesOf (text ++ tail)) false

/-! ## Quoted scalars -/

def escape? : Char → Option Nat
  | '0' => some 0
  | 'a' => some 7
  | 'b' => some 8
  | 't' => some 9
  | '\t' => some 9
  | 'n' => some 10
  | 'v' => some 11
  | 'f' => some 12
  | 'r' => some 13
  | 'e' => some 0x1b
  | ' ' => some 0x20
  | '"' => some 0x22
  | '\\' => some 0x5c
  | '/' => some 0x2f
  | 'N' => some 0x85
  | '_' => some 0xa0
  | 'L' => some 0x2028
  | 'P' => some 0x2029
  | _ => none

def escapeLength? : Char → Option Nat
  | 'x' => some 2
  | 'u' => some 4
  | 'U' => some 8
  | _ => none

/-- Line breaks inside quotes, with the blanks around them. -/
def quotedBreaks : (fuel : Nat) → Scan (List (List Char))
  | 0 => return []
  | fuel + 1 => do
    if ← atDocumentMark then fail
    let _ ← takeWhile fun c => c == ' ' || c == '\t'
    if isBreak (← peek) then
      let b ← lineBreak
      return b :: (← quotedBreaks fuel)
    else return []

/-- What an escape stands for, after its backslash. -/
def escaped (fuel : Nat) : Scan (List Nat) := do
  let a ← peek
  match escape? a, escapeLength? a with
  | some u, _ =>
    skip
    return [u]
  | none, some n =>
    skip
    match (← ahead n).mapM Json.hexValue? with
    | some ds =>
      if ds.length < n then fail
      let u := Number.natOfDigits 16 ds
      if 0x80000000 ≤ u then throw (.malformed .tooLarge)
      if 0x110000 ≤ u then throw (.malformed .badValue)
      skips n
      return [u]
    | none => fail
  | none, none =>
    if isBreak a then
      let _ ← lineBreak
      return codesOf (← quotedBreaks fuel).flatten
    else fail

/-- The inside of a quoted scalar and its closing quote. -/
def quotedFrom (double : Bool) : (fuel : Nat) → Scan (List Nat)
  | 0 => fail
  | fuel + 1 => do
    let a ← peek
    if a = '\'' ∧ !double then
      skip
      if (← peek) = '\'' then
        skip
        return a.toNat :: (← quotedFrom double fuel)
      else return []
    else if a = '"' ∧ double then
      skip
      return []
    else if a = '\\' ∧ double then
      skip
      let us ← escaped fuel
      return us ++ (← quotedFrom double fuel)
    else if a = ' ' ∨ a = '\t' ∨ isBreak a then
      let blanks ← takeWhile fun c => c == ' ' || c == '\t'
      if isBreak (← peek) then
        let lineEnd ← lineBreak
        let breaks ← quotedBreaks fuel
        let joint :=
          if lineEnd ≠ ['\n'] then lineEnd else if breaks.isEmpty then [' '] else []
        return codesOf (joint ++ breaks.flatten) ++ (← quotedFrom double fuel)
      else return codesOf blanks ++ (← quotedFrom double fuel)
    else if a = Cursor.endMark then fail
    else
      skip
      return a.toNat :: (← quotedFrom double fuel)

def quotedScalar (double : Bool) : Scan Token := do
  skip
  return .scalar (← quotedFrom double ((← get).rest.length + 1)) false

/-! ## Plain scalars -/

/-- The gap after a word of a plain scalar. -/
inductive PlainGap where
  /-- Nothing of the scalar can follow. -/
  | none
  /-- Blanks on the line. -/
  | blanks (cs : List Char)
  /-- Line breaks, and what they read as. -/
  | breaks (cs : List Char)
  /-- Line breaks, and then the end of the document. -/
  | documentEnd

def PlainGap.chars : PlainGap → List Char
  | .blanks cs | .breaks cs => cs
  | _ => []

def PlainGap.brokeLine : PlainGap → Bool
  | .breaks _ | .documentEnd => true
  | _ => false

/-- Further line breaks in a plain scalar; none when a document mark follows one. -/
def plainBreaks : (fuel : Nat) → Scan (Option (List (List Char)))
  | 0 => return some []
  | fuel + 1 => do
    let a ← peek
    if a = ' ' then
      skip
      plainBreaks fuel
    else if isBreak a then
      let b ← lineBreak
      if ← atDocumentMark then return none
      return (← plainBreaks fuel).map (b :: ·)
    else return some []

def plainGap : Scan PlainGap := do
  let blanks ← takeWhile (· == ' ')
  if isBreak (← peek) then
    let lineEnd ← lineBreak
    if ← atDocumentMark then return .documentEnd
    match ← plainBreaks ((← get).rest.length + 1) with
    | none => return .documentEnd
    | some breaks =>
      let joint :=
        if lineEnd ≠ ['\n'] then lineEnd else if breaks.isEmpty then [' '] else []
      return .breaks (joint ++ breaks.flatten)
  else return if blanks.isEmpty then .none else .blanks blanks

def isFlowMark (c : Char) : Bool := ",[]\x7b\x7d".toList.contains c

/-- How many of the characters belong to a word of a plain scalar. -/
def plainLength (inFlow : Bool) : List Char → Nat
  | [] => 0
  | c :: cs =>
    let next := cs.headD Cursor.endMark
    if isBlankOrEnd c then 0
    else if c = ':' ∧ (isBlankOrEnd next ∨ (inFlow ∧ isFlowMark next)) then 0
    else if inFlow ∧ (isFlowMark c ∨ c = '?') then 0
    else plainLength inFlow cs + 1

/-- The words of a plain scalar; also whether its last gap broke the line. `gap` is the gap before
the next word. -/
def plainFrom (inFlow : Bool) (indent : Int) :
    (fuel : Nat) → (gap : List Char) → (broke : Bool) → Scan (List Char × Bool)
  | 0, _, broke => return ([], broke)
  | fuel + 1, gap, broke => do
    if (← peek) = '#' then return ([], broke)
    let n := plainLength inFlow (← get).rest
    if n = 0 then return ([], broke)
    let cs ← ahead n
    skips n
    let next ← plainGap
    let atEnd := next.chars.isEmpty || (← peek) == '#' ||
      (!inFlow && decide (((← get).column : Int) < indent))
    if atEnd then return (gap ++ cs, next.brokeLine)
    let (rest, broke) ← plainFrom inFlow indent fuel next.chars next.brokeLine
    return (gap ++ cs ++ rest, broke)

end Scan
end Dialogue.Yaml
