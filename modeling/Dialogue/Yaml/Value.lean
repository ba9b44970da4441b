import Dialogue.Document.Alike

/-!
# What YAML stands for

YAML stands for more than documents: there are bytes beside the texts, sets, and pairs, which are no
lists of two. Keys and the members of sets are atoms. A document is a value as it is; the other way
there are two readings: `Value.document?` is the document that JSON has for a value, `Value.typed`
the one that a value counts as where a text, a number or a list is asked for.
-/

namespace Dialogue.Yaml

/-- What may stand as a key. -/
inductive Atom where
  | scalar (s : Scalar)
  | bytes (bs : List UInt8)
deriving DecidableEq

inductive Value where
  | atom (a : Atom)
  | list (items : List Value)
  | pair (first second : Value)
  | set (members : List Atom)
  | map (entries : List (Atom × Value))

namespace Atom

def alike : Atom → Atom → Bool
  | .scalar a, .scalar b => a.alike b
  | .bytes a, .bytes b => a == b
  | _, _ => false

def scalar? : Atom → Option Scalar
  | .scalar s => some s
  | .bytes _ => none

/-- Bytes count as the text that they spell. -/
def typed : Atom → Scalar
  | .scalar s => s
  | .bytes bs =>
    match String.fromUTF8? ⟨bs.toArray⟩ with
    | some s => .text s
    | none => .unpaired (bs.map UInt8.toNat)

end Atom

namespace Value

/-- The entries of a map. -/
abbrev Fields := List (Atom × Value)

def isNull : Value → Bool
  | .atom (.scalar .null) => true
  | _ => false

def items : Value → List Value
  | .list xs => xs
  | _ => []

def insert (es : Fields) (key : Atom) (v : Value) : Fields := insertAlike Atom.alike es key v

/-- The value of the first entry that is chosen, null when there is none. -/
def firstOf (chosen : Atom → Bool) : Fields → Value
  | [] => .atom (.scalar .null)
  | (k, v) :: rest => if chosen k then v else firstOf chosen rest

/-- The value of a field, null when it is absent. -/
def field (key : String) : Value → Value
  | .map es => firstOf (· = .scalar (.text key)) es
  | _ => .atom (.scalar .null)

/-- The value under a name, which may be spelled in bytes; of several, the last one. -/
def named (key : String) : Value → Value
  | .map es => firstOf (·.typed = .text key) es.reverse
  | _ => .atom (.scalar .null)

/-! ## Documents as values -/

mutual

def ofDocument : Document → Value
  | .scalar s => .atom (.scalar s)
  | .list xs => .list (ofDocuments xs)
  | .map es => .map (ofEntries es)

def ofDocuments : List Document → List Value
  | [] => []
  | x :: xs => ofDocument x :: ofDocuments xs

def ofEntries : Entries → Fields
  | [] => []
  | (k, x) :: es => (.scalar k, ofDocument x) :: ofEntries es

end

/-! ## Values as documents -/

mutual

/-- The document that JSON has for a value: pairs are lists there; bytes and sets have no form. -/
def document? : Value → Option Document
  | .atom a => a.scalar?.map .scalar
  | .list xs => (documents? xs).map .list
  | .pair a b => return .list [← document? a, ← document? b]
  | .set _ => none
  | .map es => (entries? es).map .map

def documents? : List Value → Option (List Document)
  | [] => some []
  | x :: xs => return (← document? x) :: (← documents? xs)

def entries? : Fields → Option Entries
  | [] => some []
  | (k, x) :: es => return (← k.scalar?, ← document? x) :: (← entries? es)

end

mutual

/-- The document that a value counts as: bytes are the text that they spell, sets and pairs are
lists. -/
def typed : Value → Document
  | .atom a => .scalar a.typed
  | .list xs => .list (typedItems xs)
  | .pair a b => .list [typed a, typed b]
  | .set members => .list (members.map fun a => .scalar a.typed)
  | .map es => .map (typedEntries [] es)

def typedItems : List Value → List Document
  | [] => []
  | x :: xs => typed x :: typedItems xs

/-- Entries inserted one after the other: bytes may spell a text that is a key as well. -/
def typedEntries (front : Entries) : Fields → Entries
  | [] => front
  | (k, x) :: es => typedEntries (front.insert k.typed (typed x)) es

end

end Value
end Dialogue.Yaml
