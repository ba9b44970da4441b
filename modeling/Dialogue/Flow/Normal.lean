import Dialogue.Flow.Basic

/-!
# Normalized flows

In a normalized flow the roles are those that the nodes' data show, and the stored edges are the
direct routes of the functions. Decisions lead on by themselves and have no stored edge.
-/

namespace Dialogue

namespace NodeData

def functionList (d : NodeData) : List NodeFunction := d.functions.getD []

def role (d : NodeData) : Role :=
  if (d.postActions.getD []).any fun a => a.type = Role.endConversation then .final
  else if (d.roleMessages.getD []).isEmpty then .plain
  else .initial

end NodeData

namespace NodeFunction

/-- Where a function without a decision leads. An empty target leads nowhere. -/
def directTarget? (f : NodeFunction) : Option String :=
  match f.decision, f.target with
  | none, some target => if target = "" then none else some target
  | _, _ => none

def directEdge? (f : NodeFunction) (owner : String) : Option StoredEdge :=
  f.directTarget?.map fun target =>
    { id := "func-" ++ owner ++ "-" ++ f.name ++ "-" ++ target, source := owner, target,
      label := some f.name }

end NodeFunction

namespace FlowNode

def withRole (n : FlowNode) : FlowNode := { n with role := n.data.role }

def directEdges (n : FlowNode) : List StoredEdge :=
  n.data.functionList.filterMap (·.directEdge? n.id)

end FlowNode

def Flow.normalize (f : Flow) : Flow :=
  { f with nodes := f.nodes.map FlowNode.withRole, edges := f.nodes.flatMap FlowNode.directEdges }

end Dialogue
