import Dialogue.Graph.Routes

/-!
# References to nodes

Functions refer to nodes in three places: by their own target, by the default of their decision, and
by the targets of its conditions. `retarget` writes another id in all three, `countReferences` tells
how many there are.
-/

namespace Dialogue

/-- An id to be replaced and the one that replaces it. -/
structure Renaming where
  old : String
  new : String

def Document.isText (d : Document) (s : String) : Bool := d.alike (.text s)

def Entries.retarget (r : Renaming) (key : String) (es : Entries) : Entries :=
  if (es.get key).isText r.old then es.put key (.text r.new) else es

def targetKey : String := "next_node_id"
def fallbackKey : String := "default_next_node_id"

/-- Changes the value of a key, if there is one that counts as true. -/
def Entries.change (es : Entries) (key : String) (f : Document → Loose Document) : Loose Entries :=
  let d := es.get key
  if d.isTrue then return es.put key (← f d) else .ok es

/-- Changes the items of a list; of other values it is only asked that they have elements. -/
def Document.changeItems (f : Document → Loose Document) : Document → Loose Document
  | .list ds => return .list (← ds.mapM f)
  | d => do
    let _ ← d.elements
    .ok d

namespace Renaming

def condition (r : Renaming) : Document → Loose Document
  | .map es => .ok (.map (Entries.retarget r targetKey es))
  | d => .ok d

def decision (r : Renaming) (es : Entries) : Loose Entries :=
  (es.retarget r fallbackKey).change "conditions" (Document.changeItems r.condition)

/-- A function with its references renamed; entries that are no maps stay as they are. -/
def function (r : Renaming) : Document → Loose Document
  | .map es => do
    let es := Entries.retarget r targetKey es
    match es.get "decision" with
    | .map decision => return .map (es.put "decision" (.map (← r.decision decision)))
    | _ => .ok (.map es)
  | d => .ok d

def functions (r : Renaming) : Document → Loose Document := Document.changeItems r.function

/-- A node of a document with the references of its functions renamed. -/
def node (r : Renaming) (d : Document) : Loose Document := do
  let es ← d.entries
  let es ← es.change "data" fun data =>
    return .map (← (← data.entries).change "functions" r.functions)
  .ok (.map es)

end Renaming

/-! ## Counting -/

def total (ns : List Nat) : Nat := ns.foldl (· + ·) 0

def countField (id key : String) (es : Entries) : Nat := if (es.get key).isText id then 1 else 0

def countCondition (id : String) : Document → Nat
  | .map es => countField id targetKey es
  | _ => 0

def countFunction (id : String) : Document → Loose Nat
  | .map es => do
    let own := countField id targetKey es
    match Entries.get es "decision" with
    | .map decision => do
      let conditions ← (Entries.get decision "conditions").elementsOrNone
      .ok (own + countField id fallbackKey decision + total (conditions.map (countCondition id)))
    | _ => .ok own
  | _ => .ok 0

/-- How many references to a node there are among functions. -/
def countReferences (id : String) (functions : Document) : Loose Nat := do
  return total (← (← functions.elements).mapM (countFunction id))

/-! ## Listing -/

def decisionReferences (d : Document) : Loose (List Document) := do
  if d.isTrue then
    let es ← d.entries
    let conditions ← (es.get "conditions").elementsOrNone
    let targets ← conditions.mapM fun c => c.field targetKey
    .ok (targets ++ [es.get fallbackKey])
  else .ok []

def functionReferences (d : Document) : Loose (List Document) := do
  let es ← d.entries
  let target := es.get targetKey
  let rest ← decisionReferences (es.get "decision")
  .ok (if target.isTrue then target :: rest else rest)

def nodeReferences (d : Document) : Loose (List Document) := do
  return (← (← Graph.functionItems d).mapM functionReferences).flatten

/-- Every target that a flow document refers to, in the order of the document. -/
def references (flow : Document) : Loose (List Document) := do
  let nodes ← (← flow.field "nodes").elementsOrNone
  return (← nodes.mapM nodeReferences).flatten

end Dialogue
