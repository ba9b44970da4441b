import Dialogue.Flow.Checked
import Dialogue.Flow.Identifier

/-!
# Reading flows

What a document has to look like to be a flow, record by record. `Flow.check` gives the flow or
everything that the document violates.
-/

namespace Dialogue
namespace Reading

open Checked (violate)

/-- A name that the generated module can use; `what` says whose it is. -/
def identifier (what s : String) : Checked String :=
  if Identifier.isIdentifier s then .ok s else violate (.identifier what s)

def nameOf (what : String) : Reading String := fun d => (someText d).andThen (identifier what)

def position : Reading Position := record "Position" fun es =>
  Position.mk <$> required es "x" float <*> required es "y" float

def message : Reading Message := record "Message" fun es =>
  Message.mk <$> required es "role" (oneOf Speaker.all Speaker.name) <*>
    required es "content" text

def property : Reading Property := record "FunctionProperty" fun es =>
  Property.mk <$> required es "type" text <*> optional es "description" text <*>
    optional es "enum" (listOf choice) <*> optional es "minimum" quantity <*>
    optional es "maximum" quantity <*> optional es "pattern" text

/-- The first property with a name that is no identifier is the one reported. -/
def propertyNames (ps : List (String × Property)) : Checked (List (String × Property)) :=
  match ps.find? fun p => !Identifier.isIdentifier p.1 with
  | some p => violate (.identifier "property name" p.1)
  | none => .ok ps

def properties : Reading (List (String × Property)) := fun d =>
  (mapOf property d).andThen propertyNames

def condition : Reading Condition := record "DecisionCondition" fun es =>
  Condition.mk <$> required es "operator" (oneOf Operator.all Operator.name) <*>
    required es "value" text <*> required es "next_node_id" someText

def decision : Reading Decision := record "Decision" fun es =>
  Decision.mk <$> required es "action" someText <*>
    defaulting es "conditions" [] (listOf condition) <*>
    required es "default_next_node_id" someText <*>
    optional es "decision_node_position" position

def signatureOf (es : Entries) : Checked Signature :=
  Signature.mk <$> required es "name" (nameOf "function name") <*>
    required es "description" text <*> optional es "properties" properties <*>
    optional es "required" (listOf text)

def nodeFunction : Reading NodeFunction := record "FlowFunction" fun es =>
  NodeFunction.mk <$> signatureOf es <*> optional es "next_node_id" text <*>
    optional es "decision" decision

def globalFunction : Reading Signature := record "GlobalFunction" signatureOf

def action : Reading Action := record "Action" fun es =>
  Action.mk <$> required es "type" text <*> optional es "handler" text <*> optional es "text" text

def contextStrategy : Reading ContextStrategy := record "ContextStrategyConfig" fun es =>
  ContextStrategy.mk <$> required es "strategy" (oneOf ContextMode.all ContextMode.name) <*>
    optional es "summary_prompt" text

def dataFields : List String := [
  "label", "role_messages", "task_messages", "functions", "pre_actions", "post_actions",
  "context_strategy", "respond_immediately"]

/-- The fields that the format does not know, without those that are null. -/
def otherData (es : Entries) : Checked (List (String × Document)) :=
  (others es dataFields).map fun fs => fs.filter fun f => !f.2.isNull

def nodeData : Reading NodeData := record "NodeData" fun es =>
  NodeData.mk <$> optional es "label" someText <*> optional es "role_messages" (listOf message) <*>
    optional es "task_messages" (listOf message) <*>
    optional es "functions" (listOf nodeFunction) <*> optional es "pre_actions" (listOf action) <*>
    optional es "post_actions" (listOf action) <*>
    optional es "context_strategy" contextStrategy <*>
    optional es "respond_immediately" bool <*> otherData es

def node : Reading FlowNode := record "FlowNode" fun es =>
  FlowNode.mk <$> required es "id" (nameOf "node id") <*>
    defaulting es "type" .plain (oneOf Role.all Role.name) <*> required es "position" position <*>
    defaulting es "data" {} nodeData

def edgeCondition : Reading EdgeCondition := record "EdgeCondition" fun es =>
  EdgeCondition.mk <$> optional es "expression" text <*>
    optional es "language" (oneOf Language.all Language.name)

def storedEdge : Reading StoredEdge := record "FlowEdge" fun es =>
  StoredEdge.mk <$> required es "id" someText <*> required es "source" someText <*>
    required es "target" someText <*> optional es "label" text <*>
    optional es "priority" natural <*> optional es "condition" edgeCondition

def info : Reading Meta := record "FlowMeta" fun es =>
  Meta.mk <$> required es "name" someText <*> defaulting es "version" "0.1.0" text <*>
    optional es "description" text

/-- The key under which a field stands that may go by two. -/
def spelling (es : Entries) (key other : String) : String :=
  if !es.has key && es.has other then other else key

def flowFields (es : Entries) : List String := [
  spelling es "$schema" "schema_uri", spelling es "$id" "schema_id", "meta", "context",
  "global_functions", "nodes", "edges"]

def nodes : Reading (List FlowNode) := fun d => (listOf node d).andThen (leastItems 1)

def flow : Reading Flow := record "FlowSpec" fun es =>
  (fun f _ => f) <$>
    (Flow.mk <$> optional es (spelling es "$schema" "schema_uri") text <*>
      optional es (spelling es "$id" "schema_id") text <*> required es "meta" info <*>
      optional es "context" (mapOf .ok) <*>
      optional es "global_functions" (listOf globalFunction) <*> required es "nodes" nodes <*>
      defaulting es "edges" [] (listOf storedEdge)) <*>
    noOthers es (flowFields es)

end Reading

/-- The flow that a document describes, or its violations of the format. -/
def Flow.check (d : Document) : Except (List Issue) Flow := (Reading.flow d).toExcept

/-- As `Flow.check`, failing for the sake of what the flow is wanted for. -/
def Flow.ofDocument (purpose : Purpose) (d : Document) : Outcome Flow :=
  (Flow.check d).mapError fun issues => .invalidFlow issues purpose

end Dialogue
