import Dialogue.Flow.Basic

/-!
# The schema of flows

The document format as a JSON schema. A record lists its fields in order; the keys of every part of
the schema are in alphabetical order.
-/

namespace Dialogue
namespace Schema

abbrev Fields := List (String × Document)

/-- What the value of a field may be. -/
inductive Shape where
  | text
  | someText
  | oneOf (names : List String)
  | whole
  | natural
  | number
  | bool
  | record (name : String)
  | listOf (item : Shape)
  | someOf (item : Shape)
  | mapOf (value : Shape)
  | anyMap
  | either (shapes : List Shape)
  | nullable (shapes : List Shape)

def texts (names : List String) : Document := .list (names.map .text)

def nullShape : Document := .object [("type", .text "null")]

mutual

/-- The keys of a shape that come before its title. -/
def Shape.front : Shape → Fields
  | .someText => [("minLength", .int 1)]
  | .oneOf names => [("enum", texts names)]
  | .natural => [("minimum", .int 0)]
  | .record name => [("$ref", .text ("#/$defs/" ++ name))]
  | .listOf item => [("items", .object (item.front ++ item.back))]
  | .someOf item => [("items", .object (item.front ++ item.back)), ("minItems", .int 1)]
  | .mapOf value => [("additionalProperties", .object (value.front ++ value.back))]
  | .anyMap => [("additionalProperties", .bool true)]
  | .either shapes => [("anyOf", .list (alternatives shapes))]
  | .nullable shapes => [("anyOf", .list (alternatives shapes ++ [nullShape]))]
  | _ => []

def alternatives : List Shape → List Document
  | [] => []
  | s :: ss => .object (s.front ++ s.back) :: alternatives ss

/-- The keys of a shape that come after its title. -/
def Shape.back : Shape → Fields
  | .text | .someText | .oneOf _ => [("type", .text "string")]
  | .whole | .natural => [("type", .text "integer")]
  | .number => [("type", .text "number")]
  | .bool => [("type", .text "boolean")]
  | .listOf _ | .someOf _ => [("type", .text "array")]
  | .mapOf _ | .anyMap => [("type", .text "object")]
  | .record _ | .either _ | .nullable _ => []

end

structure Field where
  name : String
  shape : Shape
  default : Option Document := none
  isRequired : Bool := false

/-- A field that has to be there. -/
def must (name : String) (shape : Shape) : Field := { name, shape, isRequired := true }

/-- A field that may be left out or null. -/
def may (name : String) (shapes : List Shape) : Field :=
  { name, shape := .nullable shapes, default := some .null }

/-- A field that may be left out. -/
def free (name : String) (shape : Shape) (default : Option Document := none) : Field :=
  { name, shape, default }

/-! ## Titles -/

/-- The first letter as a capital, after whatever is no letter. -/
def capitalize : List Char → List Char
  | [] => []
  | c :: cs => if c.isAlpha then c.toUpper :: cs else c :: capitalize cs

def titleOf (name : String) : String :=
  " ".intercalate ((name.toList.splitOn '_').map fun w => String.ofList (capitalize w))

/-- A field whose value is a record goes by the title of the record. -/
def Field.isTitled (f : Field) : Bool :=
  match f.shape with
  | .record _ | .nullable [.record _] => false
  | _ => true

def Field.title (f : Field) : Fields :=
  if f.isTitled then [("title", .text (titleOf f.name))] else []

def Field.defaultKey (f : Field) : Fields := (f.default.map fun d => ("default", d)).toList

def Field.document (f : Field) : Document :=
  match f.shape with
  | .nullable _ => .object (f.shape.front ++ f.defaultKey ++ f.title)
  | _ => .object (f.defaultKey ++ f.shape.front ++ f.title ++ f.shape.back)

/-! ## Records -/

structure Record where
  name : String
  description : Option String := none
  /-- Whether fields with other names are said to be allowed or not. -/
  isOpen : Option Bool := none
  fields : List Field

def requiredKey (fs : List Field) : Fields :=
  match (fs.filter (·.isRequired)).map (·.name) with
  | [] => []
  | names => [("required", texts names)]

def Record.keys (r : Record) : Fields :=
  (r.isOpen.map fun b => ("additionalProperties", Document.bool b)).toList ++
    (r.description.map fun s => ("description", Document.text s)).toList ++
    [("properties", .object (r.fields.map fun f => (f.name, f.document)))] ++
    requiredKey r.fields ++ [("title", .text r.name), ("type", .text "object")]

def signature : List Field := [
  must "name" .someText,
  must "description" .text,
  may "properties" [.mapOf (.record "FunctionProperty")],
  may "required" [.listOf .text]]

def records : List Record := [
  { name := "Action"
    fields := [must "type" .text, may "handler" [.text], may "text" [.text]] },
  { name := "ContextStrategyConfig"
    fields := [
      must "strategy" (.oneOf (ContextMode.all.map ContextMode.name)),
      may "summary_prompt" [.text]] },
  { name := "Decision"
    description :=
      some "Conditional routing: `action` must assign `result`, conditions are tried in order. "
    fields := [
      must "action" .someText,
      free "conditions" (.listOf (.record "DecisionCondition")),
      must "default_next_node_id" .someText,
      may "decision_node_position" [.record "Position"]] },
  { name := "DecisionCondition"
    fields := [
      must "operator" (.oneOf (Operator.all.map Operator.name)),
      must "value" .text,
      must "next_node_id" .someText] },
  { name := "EdgeCondition"
    fields := [
      may "expression" [.text],
      may "language" [.oneOf (Language.all.map Language.name)]] },
  { name := "FlowEdge"
    fields := [
      must "id" .someText,
      must "source" .someText,
      must "target" .someText,
      may "label" [.text],
      may "priority" [.natural],
      may "condition" [.record "EdgeCondition"]] },
  { name := "FlowFunction"
    fields := signature ++ [may "next_node_id" [.text], may "decision" [.record "Decision"]] },
  { name := "FlowMeta"
    fields := [
      must "name" .someText,
      free "version" .text (some (.text "0.1.0")),
      may "description" [.text]] },
  { name := "FlowNode"
    fields := [
      must "id" .someText,
      free "type" (.oneOf (Role.all.map Role.name)) (some (.text Role.plain.name)),
      must "position" (.record "Position"),
      free "data" (.record "NodeData")] },
  { name := "FunctionProperty"
    description := some "JSON-schema style description of one function argument. "
    fields := [
      must "type" .text,
      may "description" [.text],
      may "enum" [.listOf (.either [.text, .whole, .number])],
      may "minimum" [.whole, .number],
      may "maximum" [.whole, .number],
      may "pattern" [.text]] },
  { name := "GlobalFunction", fields := signature },
  { name := "Message"
    fields := [
      must "role" (.oneOf (Speaker.all.map Speaker.name)),
      must "content" .text] },
  { name := "NodeData"
    isOpen := some true
    fields := [
      may "label" [.someText],
      may "role_messages" [.listOf (.record "Message")],
      may "task_messages" [.listOf (.record "Message")],
      may "functions" [.listOf (.record "FlowFunction")],
      may "pre_actions" [.listOf (.record "Action")],
      may "post_actions" [.listOf (.record "Action")],
      may "context_strategy" [.record "ContextStrategyConfig"],
      may "respond_immediately" [.bool]] },
  { name := "Position", fields := [must "x" .number, must "y" .number] }]

def flowRecord : Record where
  name := "FlowSpec"
  isOpen := some false
  fields := [
    may "$schema" [.text],
    may "$id" [.text],
    must "meta" (.record "FlowMeta"),
    may "context" [.anyMap],
    may "global_functions" [.listOf (.record "GlobalFunction")],
    must "nodes" (.someOf (.record "FlowNode")),
    free "edges" (.listOf (.record "FlowEdge"))]

end Schema

/-- The id that the schema goes by, and that new flow documents carry. -/
def flowSchemaId : String := "https://flows.pipecat.ai/schema/flow.json"

def flowSchema : Document :=
  .object ([("$id", .text flowSchemaId),
    ("$defs", .object (Schema.records.map fun r => (r.name, .object r.keys)))] ++
    Schema.flowRecord.keys)

end Dialogue
