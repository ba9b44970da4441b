import Dialogue.Graph.Routes
import Dialogue.Settings

/-!
# Decision nodes

A decision node stands for the decision of a function. It is never kept: `reconcile` compares the
decision nodes there are with those that there should be, and touches only what differs, so that
positions and selection survive.
-/

namespace Dialogue.Graph

/-- A function with a decision, and the node that it belongs to. -/
structure Owned where
  owner : Node
  function : Entries
  decision : Entries

namespace Owned

def name (o : Owned) : Document := o.function.get "name"

def id (o : Owned) : String := decisionIdOf o.owner.id o.name

/-- What a decision node shows of its function. -/
def summary (o : Owned) : Loose Entries := do
  let conditions ← (o.decision.get "conditions").elementsOrNone
  .ok [
    (.text "label", o.name),
    (.text "action", (o.decision.get? "action").getD (.text "")),
    (.text "condition_count", .int conditions.length),
    (.text "source_node_id", .text o.owner.id),
    (.text "function_name", o.name)]

def below (owner : Node) (settings : Settings) : Position :=
  ⟨owner.position.x + settings.decisionOffset.x, owner.position.y + settings.decisionOffset.y⟩

/-- The position kept in the decision, or one at a fixed offset from the owner. -/
def position (o : Owned) (settings : Settings) : Loose Position :=
  match o.decision.get "decision_node_position" with
  | .map es =>
    match Entries.get? es "x", Entries.get? es "y" with
    | some x, some y => do
      let x ← x.asFloat
      let y ← y.asFloat
      .ok ⟨x, y⟩
    | _, _ => .ok (below o.owner settings)
  | _ => .ok (below o.owner settings)

def node (o : Owned) (settings : Settings) : Loose Node := do
  let position ← o.position settings
  let data ← o.summary
  .ok { id := o.id, kind := Node.decisionKind, position, data }

end Owned

/-- The decisions of a node's functions with a name. -/
def ownedBy (n : Node) : Loose (List Owned) := do
  if n.isDecision then .ok []
  else
    let functions ← n.functions
    .ok (functions.filterMap fun f => match f.get "decision" with
      | .map decision => if (f.get "name").isTrue then some ⟨n, f, decision⟩ else none
      | _ => none)

/-- Decisions of the same id share one node, which stands where the first came and for the last. -/
def putOwned (os : List Owned) (o : Owned) : List Owned :=
  match os with
  | [] => [o]
  | p :: rest => if p.id = o.id then o :: rest else p :: putOwned rest o

/-- The decisions that should have a node. -/
def expected (nodes : List Node) : Loose (List Owned) :=
  return (← nodes.mapM ownedBy).flatten.foldl putOwned []

structure Reconciled where
  nodes : List Node := []
  created : List String := []
  updated : List String := []
  removed : List String := []

namespace Reconciled

def changed (r : Reconciled) : Bool :=
  !(r.created.isEmpty && r.updated.isEmpty && r.removed.isEmpty)

def keep (n : Node) (r : Reconciled) : Reconciled := { r with nodes := n :: r.nodes }

def update (n : Node) (r : Reconciled) : Reconciled :=
  { r with nodes := n :: r.nodes, updated := n.id :: r.updated }

def remove (n : Node) (r : Reconciled) : Reconciled := { r with removed := n.id :: r.removed }

end Reconciled

def isStale (n : Node) (summary : Entries) : Bool :=
  summary.any fun (k, d) => match k with
    | .text key => !(Entries.get n.data key).alike d
    | _ => false

/-- What becomes of the nodes there are; `present` holds the decision nodes already met. -/
def keepExpected (os : List Owned) (present : List String) : List Node → Loose Reconciled
  | [] => .ok {}
  | n :: ns =>
    if !n.isDecision then return (← keepExpected os present ns).keep n
    else
      match os.find? (·.id = n.id) with
      | none => return (← keepExpected os present ns).remove n
      | some o =>
        if present.contains n.id then return (← keepExpected os present ns).remove n
        else do
          let summary ← o.summary
          let r ← keepExpected os (n.id :: present) ns
          .ok (if isStale n summary then r.update { n with data := summary } else r.keep n)

def isPresent (nodes : List Node) (o : Owned) : Bool :=
  nodes.any fun n => n.isDecision && n.id = o.id

/-- Orphans and repeats are removed, stale summaries refreshed in place, missing decision nodes
appended. -/
def reconcile (settings : Settings) (nodes : List Node) : Loose Reconciled := do
  let os ← expected nodes
  let kept ← keepExpected os [] nodes
  let missing := os.filter fun o => !isPresent nodes o
  let built ← missing.mapM fun o => o.node settings
  .ok { kept with nodes := kept.nodes ++ built, created := missing.map (·.id) }

end Dialogue.Graph
