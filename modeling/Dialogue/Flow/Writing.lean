import Dialogue.Flow.Basic

/-!
# Writing flows

The document of a flow: the fields of every record in a fixed order, without those that are not
set.
-/

namespace Dialogue

/-- A record from the fields that are set. -/
def Document.record (fields : List (String × Option Document)) : Document :=
  .object (fields.filterMap fun f => f.2.map fun d => (f.1, d))

def Document.listOf (f : α → Document) (xs : List α) : Document := .list (xs.map f)

open Document (record listOf text)

def Position.document (p : Position) : Document := .object [("x", .float p.x), ("y", .float p.y)]

def Message.document (m : Message) : Document :=
  .object [("role", .text m.speaker.name), ("content", .text m.content)]

def Quantity.document : Quantity → Document
  | .whole n => .int n
  | .real x => .float x

def Choice.document : Choice → Document
  | .text s => .text s
  | .number q => q.document

def Property.document (p : Property) : Document :=
  record [
    ("type", some (.text p.type)),
    ("description", p.description.map text),
    ("enum", p.choices.map (listOf Choice.document)),
    ("minimum", p.minimum.map Quantity.document),
    ("maximum", p.maximum.map Quantity.document),
    ("pattern", p.pattern.map text)]

def Condition.document (c : Condition) : Document :=
  .object [("operator", .text c.operator.name), ("value", .text c.value),
    ("next_node_id", .text c.target)]

def Decision.fields (d : Decision) : List (String × Option Document) := [
  ("action", some (.text d.action)),
  ("conditions", some (listOf Condition.document d.conditions)),
  ("default_next_node_id", some (.text d.fallback)),
  ("decision_node_position", d.position.map Position.document)]

def Decision.document (d : Decision) : Document := record d.fields

def Signature.fields (s : Signature) : List (String × Option Document) := [
  ("name", some (.text s.name)),
  ("description", some (.text s.description)),
  ("properties", s.properties.map fun ps => .object (ps.map fun p => (p.1, p.2.document))),
  ("required", s.required.map (listOf text))]

def Signature.document (s : Signature) : Document := record s.fields

def NodeFunction.fields (f : NodeFunction) : List (String × Option Document) :=
  f.toSignature.fields ++ [
    ("next_node_id", f.target.map text),
    ("decision", f.decision.map Decision.document)]

def NodeFunction.document (f : NodeFunction) : Document := record f.fields

def Action.document (a : Action) : Document :=
  record [
    ("type", some (.text a.type)),
    ("handler", a.handler.map Document.text),
    ("text", a.text.map Document.text)]

def ContextStrategy.document (s : ContextStrategy) : Document :=
  record [("strategy", some (.text s.mode.name)), ("summary_prompt", s.summaryPrompt.map text)]

def NodeData.fields (d : NodeData) : List (String × Option Document) :=
  [("label", d.label.map text),
    ("role_messages", d.roleMessages.map (listOf Message.document)),
    ("task_messages", d.taskMessages.map (listOf Message.document)),
    ("functions", d.functions.map (listOf NodeFunction.document)),
    ("pre_actions", d.preActions.map (listOf Action.document)),
    ("post_actions", d.postActions.map (listOf Action.document)),
    ("context_strategy", d.contextStrategy.map ContextStrategy.document),
    ("respond_immediately", d.respondImmediately.map Document.bool)] ++
    d.others.map fun f => (f.1, some f.2)

def NodeData.document (d : NodeData) : Document := record d.fields

def FlowNode.document (n : FlowNode) : Document :=
  .object [("id", .text n.id), ("type", .text n.role.name), ("position", n.position.document),
    ("data", n.data.document)]

def EdgeCondition.document (c : EdgeCondition) : Document :=
  record [("expression", c.expression.map text),
    ("language", c.language.map fun l => .text l.name)]

def StoredEdge.document (e : StoredEdge) : Document :=
  record [
    ("id", some (.text e.id)),
    ("source", some (.text e.source)),
    ("target", some (.text e.target)),
    ("label", e.label.map text),
    ("priority", e.priority.map fun n => .int n),
    ("condition", e.condition.map EdgeCondition.document)]

def Meta.document (m : Meta) : Document :=
  record [
    ("name", some (.text m.name)),
    ("version", some (.text m.version)),
    ("description", m.description.map text)]

def Flow.fields (f : Flow) : List (String × Option Document) := [
  ("$schema", f.schemaUri.map text),
  ("$id", f.schemaId.map text),
  ("meta", some f.info.document),
  ("context", f.context.map Document.object),
  ("global_functions", f.globalFunctions.map (listOf Signature.document)),
  ("nodes", some (listOf FlowNode.document f.nodes)),
  ("edges", some (listOf StoredEdge.document f.edges))]

def Flow.document (f : Flow) : Document := record f.fields

end Dialogue
