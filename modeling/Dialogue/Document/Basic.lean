/-!
# Documents

A document is what a reader of JSON or YAML makes of a text: scalars, lists, and maps whose entries
keep the order in which their keys were first written. Keys are scalars; most are texts.

A text that holds surrogate code points pairing with nothing is no Unicode text. It is kept apart
as `unpaired`, by its code points.
-/

namespace Dialogue

/-- A day, perhaps with a time of day, perhaps at a given offset from universal time in seconds. -/
structure Moment where
  year : Nat
  month : Nat
  day : Nat
  time : Option (Nat × Nat × Nat × Nat) := none
  offset : Option Int := none
deriving DecidableEq, Repr

inductive Scalar where
  | null
  | bool (b : Bool)
  | int (n : Int)
  | float (x : Float)
  | text (s : String)
  | unpaired (codes : List Nat)
  | date (m : Moment)
deriving DecidableEq, Inhabited

inductive Document where
  | scalar (s : Scalar)
  | list (items : List Document)
  | map (entries : List (Scalar × Document))
deriving Inhabited

/-- The entries of a map, in the order in which their keys came. -/
abbrev Entries := List (Scalar × Document)

/-- A text from its code points. -/
def Scalar.ofCodes (codes : List Nat) : Scalar :=
  if codes.all Nat.isValidChar then .text (String.ofList (codes.map Char.ofNat))
  else .unpaired codes

/-- The code points of a text. -/
def Scalar.codes? : Scalar → Option (List Nat)
  | .text s => some (s.toList.map Char.toNat)
  | .unpaired codes => some codes
  | _ => none

namespace Document

@[match_pattern] abbrev null : Document := .scalar .null
@[match_pattern] abbrev bool (b : Bool) : Document := .scalar (.bool b)
@[match_pattern] abbrev int (n : Int) : Document := .scalar (.int n)
@[match_pattern] abbrev float (x : Float) : Document := .scalar (.float x)
@[match_pattern] abbrev text (s : String) : Document := .scalar (.text s)

/-- A map whose keys are all texts. -/
def object (fields : List (String × Document)) : Document :=
  .map (fields.map fun f => (.text f.1, f.2))

/-- Zero, no text, no items, no entries, false and null count as false, all else as true. -/
def isTrue : Document → Bool
  | .null => false
  | .bool b => b
  | .int n => n != 0
  | .float x => x != 0.0
  | .text s => s != ""
  | .scalar _ => true
  | .list xs => !xs.isEmpty
  | .map es => !es.isEmpty

def isMap : Document → Bool
  | .map _ => true
  | _ => false

def isNull : Document → Bool
  | .null => true
  | _ => false

def ofOption : Option Document → Document := (·.getD null)

end Document

namespace Entries

/-- The value under a key that is a text. -/
def get? (es : Entries) (key : String) : Option Document :=
  match es with
  | [] => none
  | (k, d) :: rest => if k = .text key then some d else get? rest key

/-- The value under a key, null when there is none. -/
def get (es : Entries) (key : String) : Document := (es.get? key).getD .null

def has (es : Entries) (key : String) : Bool := (es.get? key).isSome

/-- Writes a value under a key: in its place if the key is there, at the end otherwise. -/
def put (es : Entries) (key : String) (d : Document) : Entries :=
  match es with
  | [] => [(.text key, d)]
  | (k, x) :: rest => if k = .text key then (k, d) :: rest else (k, x) :: put rest key d

def erase (es : Entries) (key : String) : Entries := es.filter fun e => e.1 != .text key

end Entries
end Dialogue
