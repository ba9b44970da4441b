import Dialogue.Document.Alike
import Dialogue.Document.Malformed
import Dialogue.Number.Reader

/-!
# Loose values as numbers and maps
-/

namespace Dialogue.Document

def wholeAsFloat (n : Int) : Loose Float :=
  match Number.ofInt? n with
  | some x => .ok x
  | none => .error .tooLarge

def textAsFloat (s : String) : Loose Float :=
  match Number.floatOfText? s.toList with
  | some x => .ok x
  | none => .error .badValue

/-- The float that a value stands for. -/
def asFloat : Document → Loose Float
  | .float x => .ok x
  | .int n => wholeAsFloat n
  | .bool b => .ok (if b then 1.0 else 0.0)
  | .text s => textAsFloat s
  | .scalar (.unpaired _) => .error .badValue
  | _ => .error .wrongKind

/-- As `asFloat`, with zero for a value that counts as false. -/
def asFloatOrZero (d : Document) : Loose Float := if d.isTrue then d.asFloat else .ok 0.0

def pairOf : List Document → Loose (Scalar × Document)
  | [k, d] => return (← k.asKey, d)
  | _ => .error .badValue

/-- A map as it is, or made of a list of pairs of a key and a value. -/
def asMap : Document → Loose Entries
  | .map es => .ok es
  | d => do
    let items ← d.elements
    items.foldlM (fun es item => do
      let (k, x) ← pairOf (← item.elements)
      .ok (es.insert k x)) []

end Dialogue.Document
