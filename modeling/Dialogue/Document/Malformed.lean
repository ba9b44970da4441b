import Dialogue.Document.Basic

/-!
# Reading loose documents

Operations on documents that nobody has checked read them field by field. `Malformed` names the ways
in which a value can fail to be what the operation reads.
-/

namespace Dialogue

inductive Malformed where
  /-- A field that has to be there is not. -/
  | missingKey
  /-- A field is asked of a value that has none. -/
  | noFields
  /-- A value of a kind that the operation cannot use. -/
  | wrongKind
  /-- A value of the right kind that stands for nothing. -/
  | badValue
  /-- A number out of range. -/
  | tooLarge
deriving DecidableEq, Repr

abbrev Loose := Except Malformed

namespace Document

def entries : Document → Loose Entries
  | .map es => .ok es
  | _ => .error .noFields

/-- The value of a field, null when it is absent. -/
def field (d : Document) (key : String) : Loose Document :=
  return (← d.entries).get key

/-- What a loop over the value runs through: items, keys, or characters. -/
def elements : Document → Loose (List Document)
  | .list xs => .ok xs
  | .map es => .ok (es.map fun e => .scalar e.1)
  | .text s => .ok (s.toList.map fun c => .text (String.singleton c))
  | .scalar (.unpaired codes) => .ok (codes.map fun c => .scalar (Scalar.ofCodes [c]))
  | _ => .error .wrongKind

/-- As `elements`, with nothing to run through in a value that counts as false. -/
def elementsOrNone (d : Document) : Loose (List Document) :=
  if d.isTrue then d.elements else .ok []

/-- The entries of a map, none for a value that counts as false. -/
def entriesOrNone (d : Document) : Loose Entries :=
  if d.isTrue then d.entries else .ok []

/-- Only scalars can be members of a set of seen values. -/
def asKey : Document → Loose Scalar
  | .scalar s => .ok s
  | _ => .error .wrongKind

end Document
end Dialogue
