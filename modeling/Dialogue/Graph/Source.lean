import Dialogue.Failure
import Dialogue.Flow.Writing
import Dialogue.Graph.Decisions

/-!
# Sources of decision nodes

A decision node's id names the function whose decision it stands for. A decision node that is
dragged leaves its new position with that function.
-/

namespace Dialogue.Graph

/-- The function behind a decision node: the `index`th function entry of its owner. -/
structure Source where
  owner : Node
  index : Nat
  function : Entries

/-- Whether an entry is the function of that name and has a decision. -/
def decides (name : String) (function : Entries) : Bool :=
  (function.get "name").alike (.text name) && (function.get "decision").isMap

def findSource (id : String) (nodes : List Node) : Loose (Option Source) := do
  let some (ownerId, name) := Identifier.decisionParts? id | .ok none
  let some owner := nodes.find? fun n => n.id = ownerId && !n.isDecision | .ok none
  let functions ← owner.functions
  .ok ((functions.zipIdx.find? fun f => decides name f.1).map fun f => ⟨owner, f.2, f.1⟩)

def requireSource (id : String) (nodes : List Node) : Outcome Source := do
  match ← findSource id nodes with
  | some source => .ok source
  | none => .error (.ownerlessDecision id)

/-- A position that has to be complete. -/
def exactPosition (d : Document) : Loose Position :=
  match d with
  | .map es => do
    let some x := Entries.get? es "x" | .error .missingKey
    let x ← x.asFloat
    let some y := Entries.get? es "y" | .error .missingKey
    let y ← y.asFloat
    .ok ⟨x, y⟩
  | _ => .error .wrongKind

/-- The map entries of a list of functions, the `index`th changed. -/
def changeNth (change : Entries → Entries) : (index : Nat) → List Document → List Document
  | _, [] => []
  | 0, .map es :: ds => .map (change es) :: ds
  | index + 1, .map es :: ds => .map es :: changeNth change index ds
  | index, d :: ds => d :: changeNth change index ds

/-- The function with a position kept in its decision. -/
def placed (p : Position) (function : Entries) : Entries :=
  match function.get "decision" with
  | .map decision =>
    function.put "decision" (.map (Entries.put decision "decision_node_position" p.document))
  | _ => function

/-- The owner's data once the source's decision is placed. -/
def Source.placedData (s : Source) (p : Position) : Entries :=
  match s.owner.data.get "functions" with
  | .list ds => s.owner.data.put "functions" (.list (changeNth (placed p) s.index ds))
  | _ => s.owner.data

/-- The decision node moves, and its owner keeps the position. -/
def drag (id : String) (position : Document) (nodes : List Node) : Outcome (List Node) := do
  let source ← requireSource id nodes
  let p ← (exactPosition position).lift
  .ok (nodes.map fun n =>
    if n.id = source.owner.id && !n.isDecision then { n with data := source.placedData p }
    else if n.id = id && n.isDecision then { n with position := p }
    else n)

end Dialogue.Graph
