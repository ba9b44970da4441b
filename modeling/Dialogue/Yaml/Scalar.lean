import Dialogue.Yaml.Cursor

/-!
# YAML scalars

A plain scalar takes its tag from its form: truth values, null, numbers in several bases, dates.
The second part reads the value of a scalar whose tag is known; the third one the bytes that are
spelled in base sixty-four.
-/

namespace Dialogue.Yaml

/-- The tags that have a meaning. -/
inductive Tag where
  | null
  | bool
  | int
  | float
  | timestamp
  | merge
  | equals
  | text
  | binary
  | list
  | map
  | pairs
  | set
  | unsupported
deriving DecidableEq

def standardTags : List (String × Tag) := [
  ("null", .null), ("bool", .bool), ("int", .int), ("float", .float), ("timestamp", .timestamp),
  ("merge", .merge), ("value", .equals), ("str", .text), ("binary", .binary), ("seq", .list),
  ("map", .map), ("omap", .pairs), ("pairs", .pairs), ("set", .set)]

def standardStart : String := "tag:yaml.org,2002:"

def Tag.ofName (name : String) : Tag :=
  match standardTags.find? fun t => standardStart ++ t.1 = name with
  | some t => t.2
  | none => .unsupported

/-! ## Forms of plain scalars -/

def nullWords : List String := ["~", "null", "Null", "NULL", ""]

def trueWords : List String := ["yes", "Yes", "YES", "true", "True", "TRUE", "on", "On", "ON"]

def falseWords : List String := ["no", "No", "NO", "false", "False", "FALSE", "off", "Off", "OFF"]

def isDigitOrScore (c : Char) : Bool := c.isDigit || c == '_'

/-- A digit, then digits and underscores. -/
def isDigitRun : List Char → Bool
  | c :: cs => c.isDigit && cs.all isDigitOrScore
  | [] => false

/-- A part of a number of base sixty after the first: one digit, or two below sixty. -/
def isSixtieth : List Char → Bool
  | [c] => c.isDigit
  | [c, d] => '0' ≤ c && c ≤ '5' && d.isDigit
  | _ => false

/-- The parts between colons. -/
def colonParts (cs : List Char) : List (List Char) := cs.splitOn ':'

/-- An exponent with a sign, or nothing. -/
def isExponent : List Char → Bool
  | [] => true
  | e :: s :: d :: ds =>
    (e == 'e' || e == 'E') && (s == '-' || s == '+') && (d :: ds).all Char.isDigit
  | _ => false

/-- Digits and underscores, then perhaps an exponent. -/
def isFractionEnd (cs : List Char) : Bool := isExponent (cs.dropWhile isDigitOrScore)

def unsigned (cs : List Char) : List Char := (Number.takeSign cs).2

def isFloatForm (cs : List Char) : Bool :=
  let body := unsigned cs
  let signed := body.length != cs.length
  let name := String.ofList body
  let (whole, fraction) := Number.cut (· == '.') body
  let sixties := colonParts whole
  (name == ".inf" || name == ".Inf" || name == ".INF") ||
    (!signed && (name == ".nan" || name == ".NaN" || name == ".NAN")) ||
    (match fraction with
      | none => false
      | some fs =>
        (isDigitRun whole && isFractionEnd fs) ||
          (!signed && whole.isEmpty && (fs.headD '_').isDigit && isFractionEnd fs) ||
          (2 ≤ sixties.length && isDigitRun (sixties.headD []) && (sixties.drop 1).all isSixtieth &&
            fs.all isDigitOrScore))

def startsNonZero (cs : List Char) : Bool := isDigitRun cs && cs.head? != some '0'

def isIntForm (cs : List Char) : Bool :=
  let body := unsigned cs
  match body with
  | '0' :: 'b' :: ds => !ds.isEmpty && ds.all fun c => c == '0' || c == '1' || c == '_'
  | '0' :: 'x' :: ds => !ds.isEmpty && ds.all fun c => (Json.hexValue? c).isSome || c == '_'
  | ['0'] => true
  | '0' :: ds => ds.all fun c => ('0' ≤ c && c ≤ '7') || c == '_'
  | _ =>
    let sixties := colonParts body
    startsNonZero (sixties.headD []) && (sixties.drop 1).all isSixtieth

/-- The fields of a date: the digits of each, and what stands for the offset. -/
structure MomentText where
  year : List Char
  month : List Char
  day : List Char
  time : Option (List Char × List Char × List Char × List Char) := none
  /-- `Z`, or a sign with hours and perhaps minutes. -/
  offset : Option (Bool × List Char × List Char) := none
  universal : Bool := false

/-- One or two digits, and what follows. -/
def oneOrTwo? : List Char → Option (List Char × List Char)
  | c :: d :: cs =>
    if c.isDigit then some (if d.isDigit then ([c, d], cs) else ([c], d :: cs)) else none
  | [c] => if c.isDigit then some ([c], []) else none
  | [] => none

/-- Two digits, and what follows. -/
def two? : List Char → Option (List Char × List Char)
  | c :: d :: cs => if c.isDigit && d.isDigit then some ([c, d], cs) else none
  | _ => none

def expect? (c : Char) : List Char → Option (List Char)
  | d :: cs => if c = d then some cs else none
  | [] => none

def isTabOrSpace (c : Char) : Bool := c == ' ' || c == '\t'

/-- What may follow the time of day: nothing, or an offset from universal time. -/
def offsetText? (cs : List Char) : Option (Bool × Option (Bool × List Char × List Char)) :=
  if cs.isEmpty then some (false, none)
  else
    match cs.dropWhile isTabOrSpace with
    | ['Z'] => some (true, none)
    | sign :: rest =>
      if sign = '-' ∨ sign = '+' then do
        let (hours, rest) ← oneOrTwo? rest
        if rest.isEmpty then some (false, some (sign = '-', hours, []))
        else
          let (minutes, rest) ← two? (← expect? ':' rest)
          if rest.isEmpty then some (false, some (sign = '-', hours, minutes)) else none
      else none
    | [] => none

/-- A day, or a day and a time of day. -/
def momentText? (cs : List Char) : Option MomentText := do
  let year := cs.take 4
  if year.length < 4 ∨ !year.all Char.isDigit then none
  let (month, rest) ← oneOrTwo? (← expect? '-' (cs.drop 4))
  let (day, rest) ← oneOrTwo? (← expect? '-' rest)
  if rest.isEmpty then some { year, month, day }
  else
    let afterGap ← match rest with
      | c :: more =>
        if c = 'T' ∨ c = 't' then some more
        else if isTabOrSpace c then some (more.dropWhile isTabOrSpace)
        else none
      | [] => none
    let (hour, rest) ← oneOrTwo? afterGap
    let (minute, rest) ← two? (← expect? ':' rest)
    let (second, rest) ← two? (← expect? ':' rest)
    let (fraction, rest) := match rest with
      | '.' :: more => (more.takeWhile Char.isDigit, more.dropWhile Char.isDigit)
      | _ => ([], rest)
    let (universal, offset) ← offsetText? rest
    some { year, month, day, time := some (hour, minute, second, fraction), offset, universal }

/-- A plain scalar that is a date shows month and day in two digits when it has no time of day. -/
def isTimestampForm (cs : List Char) : Bool :=
  match momentText? cs with
  | some m => m.time.isSome || (m.month.length == 2 && m.day.length == 2)
  | none => false

/-- The tag that a plain scalar has by its form. -/
def plainTag (cs : List Char) : Tag :=
  let word := String.ofList cs
  if trueWords.contains word || falseWords.contains word then .bool
  else if isFloatForm cs then .float
  else if isIntForm cs then .int
  else if word = "<<" then .merge
  else if nullWords.contains word then .null
  else if isTimestampForm cs then .timestamp
  else if word = "=" then .equals
  else .text

/-! ## Values -/

abbrev Meaning := Except Fault Scalar

def noValue {α : Type} (m : Malformed) : Except Fault α := .error (.malformed m)

def orBadValue : Option α → Except Fault α
  | some a => .ok a
  | none => noValue .badValue

def baseValue? (base : Nat) (cs : List Char) : Option Int := do
  let ds ← cs.mapM Json.hexValue?
  if ds.isEmpty ∨ ds.any (base ≤ ·) then none else some (Number.natOfDigits base ds)

/-- The number whose digits in base sixty are given, the most significant first. -/
def sixties (parts : List Int) : Int := parts.foldl (fun n d => 60 * n + d) 0

def intValue (cs : List Char) : Meaning := do
  let (negative, body) := Number.takeSign (cs.filter (· != '_'))
  let n ← orBadValue <| match body with
    | ['0'] => some 0
    | '0' :: 'b' :: ds => baseValue? 2 ds
    | '0' :: 'x' :: ds => baseValue? 16 ds
    | '0' :: 'o' :: ds => baseValue? 8 ds
    | '0' :: _ => baseValue? 8 body
    | _ =>
      if body.contains ':' then ((colonParts body).mapM Number.intOfText?).map sixties
      else Number.intOfText? body
  return .int (if negative then -n else n)

/-- As `sixties` on floats, adding up from the least significant part. -/
def floatSixties (parts : List Float) : Float :=
  (parts.reverse.foldl (fun (sum, base) x => (sum + x * Float.ofNat base, 60 * base)) (0.0, 1)).1

def floatValue (cs : List Char) : Meaning := do
  let (negative, body) := Number.takeSign ((cs.filter (· != '_')).map Char.toLower)
  let name := String.ofList body
  let x ←
    if name = ".inf" then pure Number.infinity
    else if name = ".nan" then pure Number.notANumber
    else orBadValue <|
      if body.contains ':' then ((colonParts body).mapM Number.floatOfText?).map floatSixties
      else Number.floatOfText? body
  return .float (if negative then -x else x)

def boolValue (cs : List Char) : Meaning :=
  let word := String.ofList (cs.map Char.toLower)
  if trueWords.contains word then .ok (.bool true)
  else if falseWords.contains word then .ok (.bool false)
  else noValue .missingKey

def isLeapYear (y : Nat) : Bool := y % 4 == 0 && (y % 100 != 0 || y % 400 == 0)

def daysInMonth (y m : Nat) : Nat :=
  if m = 2 then if isLeapYear y then 29 else 28
  else if m = 4 ∨ m = 6 ∨ m = 9 ∨ m = 11 then 30 else 31

/-- Millionths of a second from the digits of a fraction. -/
def micros (fraction : List Char) : Nat :=
  let six := fraction.take 6
  Json.digitsValue (six ++ List.replicate (6 - six.length) '0')

/-- A moment that exists. -/
def momentValue? (t : MomentText) : Option Moment :=
  let year := Json.digitsValue t.year
  let month := Json.digitsValue t.month
  let day := Json.digitsValue t.day
  if year = 0 ∨ month = 0 ∨ 12 < month ∨ day = 0 ∨ daysInMonth year month < day then none
  else
    match t.time with
    | none => some { year, month, day }
    | some (h, m, s, fraction) =>
      let hour := Json.digitsValue h
      let minute := Json.digitsValue m
      let second := Json.digitsValue s
      let offset : Option Int := match t.offset with
        | some (negative, hours, minutes) =>
          some (Number.signed negative
            (3600 * Json.digitsValue hours + 60 * Json.digitsValue minutes))
        | none => if t.universal then some 0 else none
      if 23 < hour ∨ 59 < minute ∨ 59 < second ∨ offset.any fun o => 86400 ≤ o.natAbs then none
      else some { year, month, day, time := some (hour, minute, second, micros fraction), offset }

def timestampValue (cs : List Char) : Meaning :=
  match momentText? cs with
  | none => noValue .noFields
  | some t => return .date (← orBadValue (momentValue? t))

/-- The value of a scalar under its tag. Numbers, truth values and dates are spelled in characters;
texts are any code points. -/
def scalarValue (tag : Tag) (codes : List Nat) : Meaning :=
  let spelled (read : List Char → Meaning) : Meaning :=
    match Scalar.ofCodes codes with
    | .text s => read s.toList
    | _ => noValue .badValue
  match tag with
  | .null => .ok .null
  | .bool => spelled boolValue
  | .int => spelled intValue
  | .float => spelled floatValue
  | .timestamp => spelled timestampValue
  | .text => .ok (Scalar.ofCodes codes)
  | .binary | .merge | .equals | .list | .map | .pairs | .set | .unsupported => .error .notYaml

/-! ## Bytes -/

/-- The six bits that a character stands for. -/
def sextet? (c : Char) : Option Nat :=
  if c.isUpper then some (c.toNat - 'A'.toNat)
  else if c.isLower then some (c.toNat - 'a'.toNat + 26)
  else if c.isDigit then some (c.toNat - '0'.toNat + 52)
  else if c = '+' then some 62
  else if c = '/' then some 63
  else none

/-- The whole bytes in up to four groups of six bits. -/
def sextetBytes : List Nat → List UInt8
  | a :: b :: rest =>
    UInt8.ofNat (4 * a + b / 16) ::
      match rest with
      | [] => []
      | c :: rest =>
        UInt8.ofNat (16 * (b % 16) + c / 4) ::
          match rest with
          | [] => []
          | d :: _ => [UInt8.ofNat (64 * (c % 4) + d)]
  | _ => []

/-- The bytes of a text in base sixty-four: `group` is what has been read of four characters, and
`pads` counts the equals signs after it. Once these fill a group of two or three up to four, the
text ends. Characters that stand for nothing are passed over. -/
def base64? (group : List Nat) (pads : Nat) : List Char → Option (List UInt8)
  | [] => if group.isEmpty then some [] else none
  | c :: cs =>
    if c = '=' then
      if group.length < 2 then base64? group pads cs
      else if group.length + pads < 3 then base64? group (pads + 1) cs
      else some (sextetBytes group)
    else
      match sextet? c with
      | none => base64? group pads cs
      | some bits =>
        if group.length < 3 then base64? (group ++ [bits]) 0 cs
        else (base64? [] 0 cs).map fun bs => sextetBytes (group ++ [bits]) ++ bs

def binaryValue (codes : List Nat) : Except Fault (List UInt8) :=
  if codes.all (· < 0x80) then
    match base64? [] 0 (codes.map Char.ofNat) with
    | some bs => .ok bs
    | none => .error .notYaml
  else .error .notYaml

end Dialogue.Yaml
