import Dialogue.Flow.Basic
import Dialogue.Flow.Issue
import Dialogue.Number.Reader

/-!
# Checked readings

A reading of a document either gives a value or all the rules that the document violates, in the
order of the fields. Readings side by side are joined by `<*>`, which keeps the violations of both.

Readings are lenient where a value says what is meant: numbers may be given as text, truth values as
numbers or words, whole numbers as floats.
-/

namespace Dialogue

/-- The rules of the document format. -/
inductive Rule where
  | required
  | noOthers
  | record (name : String)
  | map
  | list
  | leastItems (least actual : Nat)
  | text
  | unicode
  | leastLength (least : Nat)
  | float
  | floatText
  | whole
  | wholeText
  | wholeSize
  | noFraction
  | finite
  | atLeast (least : Int)
  | bool
  | boolText
  | oneOf (names : List String)
  | textKey
  | identifier (what found : String)
deriving DecidableEq, Repr

/-- Names in quotes: the last after "or", the others after commas. -/
def alternatives : List String → String
  | [] => ""
  | [a] => "'" ++ a ++ "'"
  | [a, b] => "'" ++ a ++ "' or '" ++ b ++ "'"
  | a :: rest => "'" ++ a ++ "', " ++ alternatives rest

def plural (n : Nat) (noun : String) : String :=
  toString n ++ " " ++ noun ++ (if n = 1 then "" else "s")

namespace Rule

def keyword : Rule → String
  | .required => "missing"
  | .noOthers => "extra_forbidden"
  | .record _ => "model_type"
  | .map => "dict_type"
  | .list => "list_type"
  | .leastItems _ _ => "too_short"
  | .text => "string_type"
  | .unicode => "string_unicode"
  | .leastLength _ => "string_too_short"
  | .float => "float_type"
  | .floatText => "float_parsing"
  | .whole => "int_type"
  | .wholeText => "int_parsing"
  | .wholeSize => "int_parsing_size"
  | .noFraction => "int_from_float"
  | .finite => "finite_number"
  | .atLeast _ => "greater_than_equal"
  | .bool => "bool_type"
  | .boolText => "bool_parsing"
  | .oneOf _ => "literal_error"
  | .textKey => "invalid_key"
  | .identifier _ _ => "value_error"

def message : Rule → String
  | .required => "Field required"
  | .noOthers => "Extra inputs are not permitted"
  | .record name => "Input should be a valid dictionary or instance of " ++ name
  | .map => "Input should be a valid dictionary"
  | .list => "Input should be a valid list"
  | .leastItems least actual =>
    "List should have at least " ++ plural least "item" ++ " after validation, not " ++
      toString actual
  | .text => "Input should be a valid string"
  | .unicode => "Input should be a valid string, unable to parse raw data as a unicode string"
  | .leastLength least => "String should have at least " ++ plural least "character"
  | .float => "Input should be a valid number"
  | .floatText => "Input should be a valid number, unable to parse string as a number"
  | .whole => "Input should be a valid integer"
  | .wholeText => "Input should be a valid integer, unable to parse string as an integer"
  | .wholeSize => "Unable to parse input string as an integer, exceeded maximum size"
  | .noFraction => "Input should be a valid integer, got a number with a fractional part"
  | .finite => "Input should be a finite number"
  | .atLeast least => "Input should be greater than or equal to " ++ toString least
  | .bool => "Input should be a valid boolean"
  | .boolText => "Input should be a valid boolean, unable to interpret input"
  | .oneOf names => "Input should be " ++ alternatives names
  | .textKey => "Keys should be strings"
  | .identifier what found =>
    "Value error, " ++ what ++ " must be a valid Python identifier, got " ++ Text.quoted found

end Rule

/-- A rule, and the steps to the value that violates it. -/
structure Violation where
  place : List String
  rule : Rule
deriving DecidableEq, Repr

def Violation.issue (v : Violation) : Issue :=
  ⟨String.join (v.place.map ("/" ++ ·)), v.rule.keyword, v.rule.message⟩

inductive Checked (α : Type) where
  | ok (a : α)
  | bad (vs : List Violation)

namespace Checked

def violate (r : Rule) : Checked α := .bad [⟨[], r⟩]

def map (f : α → β) : Checked α → Checked β
  | ok a => ok (f a)
  | bad vs => bad vs

/-- Both readings, with the violations of both. -/
def seq : Checked (α → β) → Checked α → Checked β
  | ok f, x => x.map f
  | bad vs, ok _ => bad vs
  | bad vs, bad ws => bad (vs ++ ws)

instance : Applicative Checked where
  pure := ok
  seq f x := seq f (x ())
  map := map

/-- A further check of a value that has been read. -/
def andThen (x : Checked α) (f : α → Checked β) : Checked β :=
  match x with
  | ok a => f a
  | bad vs => bad vs

/-- The reading of a part: its violations lie one step further down. -/
def under (step : String) : Checked α → Checked α
  | ok a => ok a
  | bad vs => bad (vs.map fun v => { v with place := step :: v.place })

def all : List (Checked α) → Checked (List α)
  | [] => ok []
  | x :: xs => List.cons <$> x <*> all xs

def toExcept : Checked α → Except (List Issue) α
  | ok a => .ok a
  | bad vs => .error (vs.map Violation.issue)

end Checked

abbrev Reading (α : Type) := Document → Checked α

namespace Reading

open Checked (violate)

/-! ## Scalars -/

def text : Reading String
  | .text s => .ok s
  | .scalar (.unpaired _) => violate .unicode
  | _ => violate .text

def leastLength (least : Nat) (s : String) : Checked String :=
  if s.length < least then violate (.leastLength least) else .ok s

def someText : Reading String := fun d => (text d).andThen (leastLength 1)

def floatOfText (s : String) : Checked Float :=
  match Number.lenientFloat? s.toList with
  | some x => .ok x
  | none => violate .floatText

def float : Reading Float
  | .float x => .ok x
  | .int n =>
    match Number.ofInt? n with
    | some x => .ok x
    | none => violate .float
  | .bool b => .ok (if b then 1.0 else 0.0)
  | .text s => floatOfText s
  | .scalar (.unpaired _) => violate .unicode
  | _ => violate .float

/-- Whole numbers of 64 bits lie below this bound, and not below its negative. -/
def wordBound : Int := 0x8000000000000000

/-- Floats that are whole numbers are taken as such as far as words of 64 bits go. -/
def wholeOfFloat (x : Float) : Checked Int :=
  if !x.isFinite then violate .finite
  else
    match Number.wholeValue? x with
    | none => violate .noFraction
    | some n => if -wordBound < n ∧ n < wordBound then .ok n else violate .wholeSize

def wholeOfText (s : String) : Checked Int :=
  match Number.lenientInt s.toList with
  | .value n => .ok n
  | .tooLong => violate .wholeSize
  | .notInt => violate .wholeText

def whole : Reading Int
  | .int n => .ok n
  | .bool b => .ok (if b then 1 else 0)
  | .float x => wholeOfFloat x
  | .text s => wholeOfText s
  | .scalar (.unpaired _) => violate .unicode
  | _ => violate .whole

def natural : Reading Nat := fun d =>
  (whole d).andThen fun n => if n < 0 then violate (.atLeast 0) else .ok n.toNat

def trueWords : List String := ["1", "on", "t", "true", "y", "yes"]
def falseWords : List String := ["0", "off", "f", "false", "n", "no"]

def boolOfText (s : String) : Checked Bool :=
  let word := String.ofList (s.toList.map Char.toLower)
  if trueWords.contains word then .ok true
  else if falseWords.contains word then .ok false
  else violate .boolText

def boolOfWhole (n : Int) : Checked Bool :=
  if n = 0 then .ok false else if n = 1 then .ok true else violate .boolText

def bool : Reading Bool
  | .bool b => .ok b
  | .text s => boolOfText s
  | .scalar (.unpaired _) => violate .unicode
  | .int n => if -wordBound ≤ n ∧ n < wordBound then boolOfWhole n else violate .bool
  | .float x =>
    match wholeOfFloat x with
    | .ok n => boolOfWhole n
    | .bad _ => violate .bool
  | _ => violate .bool

/-- One of several values, by name. -/
def oneOf (values : List α) (name : α → String) : Reading α := fun d =>
  let found := match d with
    | .text s => values.find? fun a => name a = s
    | _ => none
  match found with
  | some a => .ok a
  | none => violate (.oneOf (values.map name))

/-! ## Numbers and texts of several kinds

A value of one of several kinds is read as the kind that it is, else as the first that it can be
taken for. -/

/-- The first reading that succeeds, or the violations of all, each under its kind. -/
def firstOf (branches : List (String × Checked α)) : Checked α :=
  let ok? (x : Checked α) : Option α := match x with
    | .ok a => some a
    | .bad _ => none
  match branches.findSome? fun b => ok? b.2 with
  | some a => .ok a
  | none => .bad (branches.flatMap fun b => match b.2.under b.1 with
    | .ok _ => []
    | .bad vs => vs)

def quantityBranches (d : Document) : List (String × Checked Quantity) :=
  [("int", (whole d).map Quantity.whole), ("float", (float d).map Quantity.real)]

def quantity : Reading Quantity
  | .float x => .ok (.real x)
  | d => firstOf (quantityBranches d)

def choice : Reading Choice
  | .float x => .ok (.number (.real x))
  | d =>
    firstOf (("str", (text d).map Choice.text) ::
      (quantityBranches d).map fun b => (b.1, b.2.map Choice.number))

/-! ## Lists and maps -/

def listOf (item : Reading α) : Reading (List α)
  | .list xs =>
    Checked.all ((List.range xs.length).zip xs |>.map fun (i, x) => (item x).under (toString i))
  | _ => violate .list

def leastItems (least : Nat) (xs : List α) : Checked (List α) :=
  if xs.length < least then violate (.leastItems least xs.length) else .ok xs

/-- A key as a step on the way to its value. -/
def keyStep : Scalar → String
  | .bool b => if b then "1" else "0"
  | .date m =>
    let number (n : Nat) := toString n
    let time := match m.time with
      | none => []
      | some (hour, minute, second, micro) =>
        let parts := [number hour, number minute]
        if micro != 0 then parts ++ [number second, number micro]
        else if second != 0 then parts ++ [number second] else parts
    let kind := if m.time.isNone then "datetime.date(" else "datetime.datetime("
    kind ++ ", ".intercalate ([number m.year, number m.month, number m.day] ++ time) ++ ")"
  | s => String.ofList s.displayChars

/-- A map from texts. -/
def mapOf (value : Reading α) : Reading (List (String × α))
  | .map es => Checked.all (es.map fun (k, d) =>
      let name := (text (.scalar k)).under "[key]"
      (Prod.mk <$> name <*> value d).under (keyStep k))
  | _ => violate .map

/-! ## Records -/

def entriesOf (name : String) : Reading Entries
  | .map es => .ok es
  | _ => violate (.record name)

/-- A record with the given name, read from its entries. -/
def record (name : String) (fields : Entries → Checked α) : Reading α := fun d =>
  (entriesOf name d).andThen fields

def required (es : Entries) (key : String) (read : Reading α) : Checked α :=
  (match es.get? key with
    | some d => read d
    | none => violate .required).under key

/-- A field that may be left out but not be null. -/
def defaulting (es : Entries) (key : String) (default : α) (read : Reading α) : Checked α :=
  match es.get? key with
  | some d => (read d).under key
  | none => .ok default

/-- A field that may be left out or null. -/
def optional (es : Entries) (key : String) (read : Reading α) : Checked (Option α) :=
  match es.get? key with
  | none | some .null => .ok none
  | some d => ((read d).map some).under key

/-- The fields with other names, in their order; every key has to be a text. -/
def others (es : Entries) (known : List String) : Checked (List (String × Document)) :=
  (Checked.all (es.map fun (k, d) =>
    match k with
    | .text s => .ok (if known.contains s then none else some (s, d))
    | _ => (violate .textKey).under (keyStep k))).map fun fs => fs.filterMap id

/-- No fields with other names. -/
def noOthers (es : Entries) (known : List String) : Checked Unit :=
  (Checked.all (es.map fun (k, _) =>
    match k with
    | .text s => if known.contains s then .ok () else (violate .noOthers).under s
    | _ => (violate .textKey).under (keyStep k))).map fun _ => ()

end Reading
end Dialogue
