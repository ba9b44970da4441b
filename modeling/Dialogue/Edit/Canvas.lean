import Dialogue.Edit.Retarget
import Dialogue.Failure
import Dialogue.Flow.Role
import Dialogue.Graph.Decisions

/-!
# Editing graphs

Every edit takes the nodes of a graph and gives the nodes after it. Decision nodes cannot be edited:
they follow the functions.
-/

namespace Dialogue.Edit

open Dialogue.Graph (Node)

def findNode (id : String) (nodes : List Node) : Outcome Node :=
  match nodes.find? (·.id = id) with
  | some n => .ok n
  | none => .error (.unknownNode id)

/-- The first node with an id, which must not be a decision node. -/
def ownNode (action : ManagedAction) (id : String) (nodes : List Node) : Outcome Node := do
  let n ← findNode id nodes
  if n.isDecision then .error (.managedNode id action) else .ok n

def canDelete (n : Node) : Bool := !n.isDecision

def deleteNode (id : String) (nodes : List Node) : Outcome (List Node) := do
  let _ ← ownNode .delete id nodes
  .ok (nodes.filter fun n => n.id != id)

/-- Whether a node is a regular one with that id. -/
def isOwn (id : String) (n : Node) : Bool := n.id = id && !n.isDecision

/-- A map with the entries of another written over it. -/
def merge (es updates : Entries) : Entries := updates.foldl (fun es u => es.insert u.1 u.2) es

def updateNode (updates : Document) (n : Node) : Loose Node := do
  let data := merge n.data (← updates.asMap)
  let role ← Role.derive (.map data)
  .ok { n with data, kind := role.name }

/-- Writes new values over a node's data and derives its role. -/
def updateData (id : String) (updates : Document) (nodes : List Node) : Outcome (List Node) := do
  let _ ← ownNode .edit id nodes
  (nodes.mapM fun n => if isOwn id n then updateNode updates n else .ok n).lift

/-! ## One function of a node -/

/-- The entry at an index of a value that has entries; in a map the index is a key. -/
def changeAt (change : Document → Loose Document) (index : Nat) : Document → Loose Document
  | .list ds => do
    match ds[index]? with
    | some d => return .list (ds.set index (← change d))
    | none => .ok (.list ds)
  | .map es => do
    match Entries.find? es (.int index) with
    | some d => return .map (Entries.insert es (.int index) (← change d))
    | none => .error .missingKey
  | d => do
    match (← d.elements)[index]? with
    | some c => change c
    | none => .ok d

def changeFunction (change : Document → Loose Document) (id : String) (index : Int) (n : Node) :
    Loose Node := do
  let functions := n.data.get "functions"
  if isOwn id n && 0 ≤ index && functions.isTrue then
    if index < (← functions.elements).length then
      return { n with data := n.data.put "functions" (← changeAt change index.toNat functions) }
    else .ok n
  else .ok n

def withFunction (change : Document → Loose Document) (id : String) (index : Int)
    (nodes : List Node) : Loose (List Node) :=
  nodes.mapM (changeFunction change id index)

/-- Takes a field away from a function. A list has no fields by name, other values none at all. -/
def without (key : String) : Document → Loose Document
  | .map es => .ok (.map (Entries.erase es key))
  | .list _ => .error .wrongKind
  | _ => .error .noFields

def clearTarget : String → Int → List Node → Loose (List Node) := withFunction (without targetKey)

def detachDecision : String → Int → List Node → Loose (List Node) :=
  withFunction (without "decision")

/-- Gives a function a decision. Its own target goes, so that the default is the only one. -/
def attached (decision : Document) (function : Document) : Loose Document := do
  let decision ← decision.asMap
  match function with
  | .map es => .ok (.map ((Entries.put es "decision" (.map decision)).erase targetKey))
  | _ => .error .wrongKind

def attachDecision (decision : Document) : String → Int → List Node → Loose (List Node) :=
  withFunction (attached decision)

/-! ## Renaming -/

def retargetNode (r : Renaming) (n : Node) : Loose Node := do
  let functions := n.data.get "functions"
  if !n.isDecision && functions.isTrue then
    if (← countReferences r.old functions) = 0 then .ok n
    else return { n with data := n.data.put "functions" (← r.functions functions) }
  else .ok n

def retargetNodes (r : Renaming) (nodes : List Node) : Loose (List Node) :=
  nodes.mapM (retargetNode r)

/-- The names of a node's functions with a decision. -/
def decidingNames (n : Node) : Loose (List Document) := do
  let functions ← n.functions
  .ok ((functions.filter fun f => (f.get "decision").isTrue).map fun f => f.get "name")

/-- The new id of a decision node whose owner is renamed. -/
def ownedId? (r : Renaming) (names : List Document) (id : String) : Option String :=
  (names.find? fun name => Graph.decisionIdOf r.old name = id).map (Graph.decisionIdOf r.new)

def renamed (r : Renaming) (names : List Document) (n : Node) : Node :=
  if !n.isDecision then
    if n.id = r.old then { n with id := r.new } else n
  else
    match ownedId? r names n.id with
    | some id => { n with id, data := n.data.put "source_node_id" (.text r.new) }
    | none => n

/-- Renames a node and the references to it; its decision nodes get their new ids in place. -/
def renameNode (settings : Settings) (r : Renaming) (nodes : List Node) : Outcome (List Node) := do
  let n ← ownNode .rename r.old nodes
  if r.new = r.old then .ok nodes
  else if !Identifier.isIdentifier r.new then .error (.invalidIdentifier r.new)
  else
    let taken := (nodes.map (·.id)).filter (· != r.old)
    let final ← Identifier.disambiguate r.new taken settings.suffixAttempts
    let r := { r with new := final }
    let names ← decidingNames n
    let nodes ← retargetNodes r nodes
    .ok (nodes.map (renamed r names))

end Dialogue.Edit
