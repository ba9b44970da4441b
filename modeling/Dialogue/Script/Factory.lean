import Dialogue.Flow.Normal
import Dialogue.Script.Handler

/-!
# Node factories

Every node becomes a factory that makes its configuration; the handlers and descriptors of its
functions stand inside. Handlers of actions are module functions, given as stubs where a plain name
refers to one that nothing else defines.
-/

namespace Dialogue.Script

structure Factory where
  node : FlowNode
  handlers : List Handler

def factoryOf [Literal.CharNames] (types : Registry) (n : FlowNode) : Loose Factory :=
  return ⟨n, ← n.data.functionList.mapM (handlerOf types)⟩

/-! ## Messages and actions -/

def content (s : String) : String := if s.toList.contains '\n' then block s else string s

def messageText (depth : Nat) (m : Message) : String :=
  joinLines [
    indent depth ++ "\x7b",
    indent (depth + 1) ++ field "role" (string m.speaker.name) ++ ",",
    indent (depth + 1) ++ field "content" (content m.content) ++ ",",
    indent depth ++ "\x7d,"]

def braced (fields : List String) : String := "\x7b" ++ commaSeparated fields ++ "\x7d"

def functionAction : String := "function"
def speechAction : String := "tts_say"

/-- The handler that an action calls. -/
def actionHandler? (a : Action) : Option String :=
  if a.type = functionAction then nonEmpty a.handler else none

def spokenText? (a : Action) : Option String :=
  if a.type = speechAction then nonEmpty a.text else none

def actionText (a : Action) : String :=
  let type := field "type" (string a.type)
  match actionHandler? a, spokenText? a with
  | some handler, _ => braced [type, field "handler" (handlerReference handler)]
  | none, some text => braced [type, field "text" (string text)]
  | none, none => braced [type]

/-! ## Factories as text -/

/-- An argument that is a list, with an item a line; none for an empty list. -/
def listArgument (name : String) (items : List String) : List String :=
  if items.isEmpty then [] else [indent 2 ++ name ++ "=["] ++ items ++ [indent 2 ++ "],"]

def messageArgument (name : String) (ms : Option (List Message)) : List String :=
  listArgument name ((ms.getD []).map (messageText 3))

def actionArgument (name : String) (as : Option (List Action)) : List String :=
  listArgument name ((as.getD []).map fun a => indent 3 ++ actionText a ++ ",")

def functionArgument (hs : List Handler) : List String :=
  if hs.isEmpty then []
  else [indent 2 ++ "functions=[" ++
    commaSeparated (hs.map fun h => descriptorName h.function.name) ++ "],"]

def strategyArgument (s : ContextStrategy) : List String :=
  let summary := match s.mode with
    | .resetWithSummary =>
      [indent 3 ++ "summary_prompt=" ++ string (s.summaryPrompt.getD "") ++ ","]
    | _ => []
  [indent 2 ++ "context_strategy=ContextStrategyConfig(",
    indent 3 ++ "strategy=ContextStrategy." ++ s.mode.name ++ ","] ++ summary ++ [indent 2 ++ "),"]

/-- The strategy of a node, unless it is the one that nodes have anyway. -/
def ownStrategy? (n : FlowNode) : Option ContextStrategy :=
  n.data.contextStrategy.filter fun s => s.mode != .append

def respondArgument (b : Option Bool) : List String :=
  if b = some false then [indent 2 ++ "respond_immediately=False,"] else []

def Factory.functionLines (f : Factory) : List String :=
  if f.handlers.isEmpty then []
  else
    f.handlers.flatMap (fun h => ["", h.text 1]) ++
      [""] ++ f.handlers.map (fun h => descriptor 1 h.function) ++ [""]

def nodeTitle (n : FlowNode) : String := docText ((nonEmpty n.data.label).getD n.id)

/-- The text of a factory in pieces, each on lines of its own. -/
def Factory.pieces (f : Factory) : List String :=
  let n := f.node
  ["def " ++ factoryName n.id ++ "() -> NodeConfig:",
    indent 1 ++ "\"\"\"Create the " ++ nodeTitle n ++ " node.\"\"\""] ++
  f.functionLines ++
  [indent 1 ++ "return NodeConfig(",
    indent 2 ++ "name=" ++ string n.id ++ ","] ++
  messageArgument "role_messages" n.data.roleMessages ++
  messageArgument "task_messages" n.data.taskMessages ++
  functionArgument f.handlers ++
  actionArgument "pre_actions" n.data.preActions ++
  actionArgument "post_actions" n.data.postActions ++
  ((ownStrategy? n).map strategyArgument).getD [] ++
  respondArgument n.data.respondImmediately ++
  [indent 1 ++ ")"]

def Factory.text (f : Factory) : String := joinLines f.pieces

/-! ## Stubs of action handlers -/

structure Stub where
  name : String
  /-- The node that uses it first. -/
  node : String

def nodeActions (n : FlowNode) : List Action :=
  n.data.preActions.getD [] ++ n.data.postActions.getD []

/-- The plain names that the actions of nodes refer to. -/
def calledStubs (nodes : List FlowNode) : List Stub :=
  nodes.flatMap fun n => (nodeActions n).filterMap fun a =>
    ((actionHandler? a).filter fun h => isUsableName h.toList).map fun h => ⟨h, n.id⟩

/-- A stub for each name that is not taken, once. -/
def freeStubs (taken : List String) : List Stub → List Stub
  | [] => []
  | s :: ss =>
    if taken.contains s.name then freeStubs taken ss
    else s :: freeStubs (s.name :: taken) ss

def Stub.text (s : Stub) : String :=
  joinLines [
    "async def " ++ s.name ++ "(action: dict, flow_manager: FlowManager) -> None:",
    indent 1 ++ "\"\"\"Action handler used by the " ++ s.node ++ " node\"\"\"",
    indent 1 ++ "# TODO: Implement " ++ s.name,
    indent 1 ++ "pass"]

end Dialogue.Script
