import Dialogue.Document.Basic
import Dialogue.Flow.Role

/-!
# Flows

A flow is a conversation as a graph of nodes. A node's functions lead on: straight to another node,
or by a decision, whose action computes a result that its conditions test in turn. Global functions
are at hand in every node and lead nowhere. The edges that a document stores are for display only.
-/

namespace Dialogue

structure Position where
  x : Float
  y : Float
deriving DecidableEq

inductive Speaker where
  | system
  | user
  | assistant
deriving DecidableEq, Repr

structure Message where
  speaker : Speaker
  content : String
deriving DecidableEq

/-- A bound on a number: whole numbers are kept apart from floats. -/
inductive Quantity where
  | whole (n : Int)
  | real (x : Float)
deriving DecidableEq

/-- A value that an argument may be restricted to. -/
inductive Choice where
  | text (s : String)
  | number (q : Quantity)
deriving DecidableEq

def Choice.number? : Choice → Option Quantity
  | .text _ => none
  | .number q => some q

/-- The description of one function argument. -/
structure Property where
  type : String
  description : Option String := none
  choices : Option (List Choice) := none
  minimum : Option Quantity := none
  maximum : Option Quantity := none
  pattern : Option String := none
deriving DecidableEq

inductive Operator where
  | less
  | atMost
  | equal
  | atLeast
  | greater
  | differs
  | negation
  | member
  | nonMember
deriving DecidableEq, Repr

structure Condition where
  operator : Operator
  value : String
  target : String
deriving DecidableEq

/-- The action has to assign the result that the conditions test; the first that holds decides. -/
structure Decision where
  action : String
  conditions : List Condition
  fallback : String
  position : Option Position := none
deriving DecidableEq

/-- What a function is called with. -/
structure Signature where
  name : String
  description : String
  properties : Option (List (String × Property)) := none
  required : Option (List String) := none
deriving DecidableEq

/-- A function of a node. Its decision, if it has one, supersedes its target. -/
structure NodeFunction extends Signature where
  target : Option String := none
  decision : Option Decision := none
deriving DecidableEq

structure Action where
  type : String
  handler : Option String := none
  text : Option String := none
deriving DecidableEq

inductive ContextMode where
  | append
  | reset
  | resetWithSummary
deriving DecidableEq, Repr

structure ContextStrategy where
  mode : ContextMode
  summaryPrompt : Option String := none
deriving DecidableEq

/-- What a node says and does; fields that the format does not know are kept in `others`. -/
structure NodeData where
  label : Option String := none
  roleMessages : Option (List Message) := none
  taskMessages : Option (List Message) := none
  functions : Option (List NodeFunction) := none
  preActions : Option (List Action) := none
  postActions : Option (List Action) := none
  contextStrategy : Option ContextStrategy := none
  respondImmediately : Option Bool := none
  others : List (String × Document) := []

structure FlowNode where
  id : String
  role : Role
  position : Position
  data : NodeData

inductive Language where
  | python
  | jinja
  | dsl
deriving DecidableEq, Repr

structure EdgeCondition where
  expression : Option String := none
  language : Option Language := none
deriving DecidableEq

structure StoredEdge where
  id : String
  source : String
  target : String
  label : Option String := none
  priority : Option Nat := none
  condition : Option EdgeCondition := none
deriving DecidableEq

structure Meta where
  name : String
  version : String
  description : Option String := none
deriving DecidableEq

structure Flow where
  schemaUri : Option String := none
  schemaId : Option String := none
  info : Meta
  context : Option (List (String × Document)) := none
  globalFunctions : Option (List Signature) := none
  nodes : List FlowNode
  edges : List StoredEdge

/-! ## Names in documents -/

def Speaker.name : Speaker → String
  | .system => "system"
  | .user => "user"
  | .assistant => "assistant"

def Speaker.all : List Speaker := [.system, .user, .assistant]

def Operator.name : Operator → String
  | .less => "<"
  | .atMost => "<="
  | .equal => "=="
  | .atLeast => ">="
  | .greater => ">"
  | .differs => "!="
  | .negation => "not"
  | .member => "in"
  | .nonMember => "not in"

def Operator.all : List Operator :=
  [.less, .atMost, .equal, .atLeast, .greater, .differs, .negation, .member, .nonMember]

def ContextMode.name : ContextMode → String
  | .append => "APPEND"
  | .reset => "RESET"
  | .resetWithSummary => "RESET_WITH_SUMMARY"

def ContextMode.all : List ContextMode := [.append, .reset, .resetWithSummary]

def Language.name : Language → String
  | .python => "python"
  | .jinja => "jinja"
  | .dsl => "dsl"

def Language.all : List Language := [.python, .jinja, .dsl]

def Role.all : List Role := [.initial, .plain, .final]

end Dialogue
