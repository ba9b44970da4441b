import Dialogue.Yaml.Node
import Dialogue.Yaml.Value

/-!
# Reading YAML

The value that a YAML text stands for. Entries merged from other maps come before the map's own;
keys are scalars or bytes; of several alike keys the last one's value stands in the place of the
first.
-/

namespace Dialogue.Yaml

namespace Node

def isMergeKey : Node → Bool
  | .scalar .merge _ => true
  | _ => false

/-- A lone equals sign is a text where a key stands. -/
def plainKey : Node → Node
  | .scalar .equals codes => .scalar .text codes
  | n => n

mutual

/-- The entries of a map with those merged into it in front. -/
def flatEntries : (fuel : Nat) → List (Node × Node) → Except Fault (List (Node × Node))
  | 0, _ => .error .notYaml
  | fuel + 1, entries => do
    let merges := entries.filter fun e => isMergeKey e.1
    let own := entries.filter fun e => !isMergeKey e.1
    let merged ← merges.mapM fun e => mergedEntries fuel e.2
    return merged.flatten ++ own.map fun e => (plainKey e.1, e.2)

/-- The entries that the value of a merge key gives: those of a map, or of a list of maps, of which
the later ones come first. -/
def mergedEntries : (fuel : Nat) → Node → Except Fault (List (Node × Node))
  | 0, _ => .error .notYaml
  | fuel + 1, n =>
    match n with
    | .map _ entries => flatEntries fuel entries
    | .list _ items => do
      let parts ← items.mapM fun x =>
        match x with
        | .map _ entries => flatEntries fuel entries
        | _ => .error .notYaml
      return parts.reverse.flatten
    | .scalar _ _ => .error .notYaml

end

mutual

/-- The content of a scalar, or of the scalar that stands for a map with an equals sign among its
keys. -/
def scalarCodes? : Node → Option (List Nat)
  | .scalar _ codes => some codes
  | .list _ _ => none
  | .map _ entries => equalsCodes? entries

def equalsCodes? : List (Node × Node) → Option (List Nat)
  | [] => none
  | (.scalar .equals _, v) :: _ => scalarCodes? v
  | _ :: rest => equalsCodes? rest

end

/-- The value of a scalar under its tag. -/
def atomOf (tag : Tag) (codes : List Nat) : Except Fault Atom :=
  match tag with
  | .binary => return .bytes (← binaryValue codes)
  | tag => return .scalar (← scalarValue tag codes)

mutual

def value : (fuel : Nat) → Node → Except Fault Value
  | 0, _ => .error .notYaml
  | fuel + 1, n =>
    match n with
    | .scalar tag codes => return .atom (← atomOf tag codes)
    | .list .list items => return .list (← values fuel items)
    | .list .pairs items => return .list (← pairs fuel items)
    | .list _ _ => .error .notYaml
    | .map .map entries => do
      let entries ← flatEntries fuel entries
      return .map (← insertAll fuel [] entries)
    | .map .set entries => do
      let entries ← flatEntries fuel entries
      return .set ((← insertAll fuel [] entries).map Prod.fst)
    | .map tag entries =>
      match equalsCodes? entries with
      | some codes => return .atom (← atomOf tag codes)
      | none => .error .notYaml

def values : (fuel : Nat) → List Node → Except Fault (List Value)
  | 0, _ => .error .notYaml
  | _, [] => .ok []
  | fuel + 1, n :: ns => return (← value fuel n) :: (← values fuel ns)

/-- Entries inserted one after the other. -/
def insertAll : (fuel : Nat) → Value.Fields → List (Node × Node) → Except Fault Value.Fields
  | 0, _, _ => .error .notYaml
  | _, es, [] => .ok es
  | fuel + 1, es, (k, v) :: rest => do
    match ← value fuel k with
    | .atom key =>
      let x ← value fuel v
      insertAll fuel (Value.insert es key x) rest
    | _ => .error .notYaml

/-- A list of maps of one entry each, as pairs. -/
def pairs : (fuel : Nat) → List Node → Except Fault (List Value)
  | 0, _ => .error .notYaml
  | _, [] => .ok []
  | fuel + 1, n :: ns =>
    match n with
    | .map _ [(k, v)] => do
      let pair := Value.pair (← value fuel k) (← value fuel v)
      return pair :: (← pairs fuel ns)
    | _ => .error .notYaml

end

mutual

/-- A bound on the steps that reading a tree takes. -/
def weight : Node → Nat
  | .scalar _ _ => 1
  | .list _ items => weightItems items + 1
  | .map _ entries => weightEntries entries + 1

def weightItems : List Node → Nat
  | [] => 1
  | n :: ns => weight n + weightItems ns + 1

def weightEntries : List (Node × Node) → Nat
  | [] => 1
  | (k, v) :: es => weight k + weight v + weightEntries es + 1

end

end Node

/-- The value of a text; an empty text reads as null. -/
def readChars (cs : List Char) : Except Fault Value := do
  match ← Node.ofTokens? (← tokens cs) with
  | none => return .ofDocument .null
  | some n => n.value (2 * n.weight + 2)

def read (s : String) : Except Fault Value := readChars s.toList

end Dialogue.Yaml
