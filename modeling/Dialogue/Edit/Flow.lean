import Dialogue.Edit.Retarget
import Dialogue.Failure
import Dialogue.Settings

/-!
# Editing flow documents

Renaming a node rewrites every reference to it; deleting one leaves the references to it, for a
check to find them. Both derive the stored edges anew.
-/

namespace Dialogue.Edit

def nodeIds (nodes : List Document) : Loose (List Document) := nodes.mapM fun n => n.field "id"

/-- Ids that can be told apart as members of a set; only texts among them can be taken. -/
def takenIds (ids : List Document) : Loose (List String) := do
  let keys ← ids.mapM Document.asKey
  .ok (keys.filterMap fun k => match k with
    | .text s => some s
    | _ => none)

/-- The id that the node gets instead of `r.old`: `r.new`, with a suffix if another node has it. -/
def finalId (settings : Settings) (r : Renaming) (ids : List Document) : Outcome String := do
  if !ids.any (·.isText r.old) then .error (.unknownNode r.old)
  else if Identifier.isManaged r.old then .error (.managedNode r.old .rename)
  else if r.new = r.old then .ok r.new
  else if !Identifier.isIdentifier r.new then .error (.invalidIdentifier r.new)
  else
    let taken ← takenIds (ids.filter fun id => !id.isText r.old)
    Identifier.disambiguate r.new taken settings.suffixAttempts

def planRename (settings : Settings) (r : Renaming) (flow : Document) : Outcome String := do
  let es ← flow.asMap
  let nodes ← (Entries.get es "nodes").elementsOrNone
  finalId settings r (← nodeIds nodes)

/-- The first node with the old id gets the new one. -/
def renameFirst (r : Renaming) : List Document → List Document
  | [] => []
  | .map es :: ds =>
    if (Entries.get es "id").isText r.old then .map (Entries.put es "id" (.text r.new)) :: ds
    else .map es :: renameFirst r ds
  | d :: ds => d :: renameFirst r ds

/-- The document with other nodes, and the edges that they store. -/
def withNodes (flow : Entries) (nodes : List Document) : Loose Document := do
  let edges ← Graph.storedEdges nodes
  .ok (.map ((flow.put "nodes" (.list nodes)).put "edges" (.list edges)))

def rename (settings : Settings) (r : Renaming) (flow : Document) : Outcome Document := do
  let final ← planRename settings r flow
  let es ← flow.asMap
  if final = r.old then .ok (.map es)
  else
    let r := { r with new := final }
    let nodes ← (Entries.get es "nodes").elements
    let nodes ← nodes.mapM fun n => (r.node n).lift
    withNodes es (renameFirst r nodes)

/-- How many references to a node the functions of a document hold. -/
def countInFlow (id : String) (flow : Document) : Loose Nat := do
  let nodes ← (← flow.field "nodes").elementsOrNone
  let counts ← nodes.mapM fun n => do
    countReferences id (.list (← Graph.functionItems n))
  .ok (total counts)

def delete (id : String) (flow : Document) : Outcome Document := do
  if Identifier.isManaged id then .error (.managedNode id .delete)
  else
    let es ← flow.asMap
    let nodes ← (Entries.get es "nodes").elementsOrNone
    let ids ← nodeIds nodes
    if !ids.any (·.isText id) then .error (.unknownNode id)
    else withNodes es (((nodes.zip ids).filter fun n => !n.2.isText id).map (·.1))

end Dialogue.Edit
