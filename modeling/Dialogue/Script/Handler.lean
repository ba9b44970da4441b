import Dialogue.Script.ResultType
import Dialogue.Text.Line

/-!
# Handlers and descriptors

Every function becomes a handler and a descriptor that refers to it. A handler binds the function's
arguments to locals, is left to its author in the middle, and ends by giving a result and the next
node.
-/

namespace Dialogue.Script

/-- A test of a decision: what the result is compared with, and the node that it leads to. -/
structure Branch where
  operator : Operator
  value : String
  target : String

/-- Where a handler leads. -/
inductive Route where
  | decision (action : List String) (branches : List Branch) (fallback : String)
  | direct (target : String)
  | nowhere

/-- The nodes that a route can lead to, in the order in which they are tried. -/
def Route.targets : Route → List String
  | .decision _ branches fallback => branches.map (·.target) ++ [fallback]
  | .direct target => [target]
  | .nowhere => []

/-- A handler; locals are given with the properties that they hold. -/
structure Handler where
  function : Signature
  typeName : Option String
  locals : List (String × String)
  route : Route

/-! ## Locals -/

def valueName (property : String) : String := property ++ "_value"

def numberedValue (property : String) (n : Nat) : String := valueName property ++ toString n

/-- The first free name for a property's value with a number from `n` on. -/
def freeLocal (taken : List String) (property : String) (n : Nat) : (fuel : Nat) → String
  | 0 => numberedValue property n
  | fuel + 1 =>
    if taken.contains (numberedValue property n) then freeLocal taken property (n + 1) fuel
    else numberedValue property n

def chooseLocal (taken : List String) (property : String) : String :=
  if taken.contains (valueName property) then freeLocal taken property 2 taken.length
  else valueName property

/-- A local for each property: its own name, or another one if that is reserved. -/
def localsFrom (reserved taken : List String) : List String → List (String × String)
  | [] => []
  | p :: ps =>
    if reserved.contains p then
      let name := chooseLocal taken p
      (p, name) :: localsFrom reserved (name :: taken) ps
    else (p, p) :: localsFrom reserved taken ps

def localNames (reserved properties : List String) : List (String × String) :=
  localsFrom reserved (reserved ++ properties) properties

/-- What a handler binds or reads beside its arguments. -/
def handlerNames : List String :=
  ["args", "flow_manager", "result", "next_node", "_route_decision"]

def globalHandlerNames : List String := ["args", "flow_manager"]

def propertyNames (f : Signature) : List String := (propertyList f).map (·.1)

/-! ## Handlers of functions -/

/-- An action with tabs at every fourth column, no margin, and no empty lines around. -/
def actionBlock (action : String) : List Char :=
  Text.stripWhile (· == '\n') (Text.dedent (Text.expandTabs 4 action.toList))

def actionLines (action : String) : List (List Char) := Text.lines (actionBlock action)

/-- Fails when the descriptor would have to write a number that is too long. -/
def checkNumbers (f : Signature) : Loose Unit :=
  if (propertyList f).all fun p => (numbers p.2).all isShort then .ok () else .error .badValue

section

variable [Literal.CharNames]

def branchOf (c : Condition) : Loose Branch :=
  return ⟨c.operator, ← conditionValue c.value, c.target⟩

def decisionRoute (d : Decision) : Loose Route := do
  let branches ← d.conditions.mapM branchOf
  .ok (.decision ((actionLines d.action).map String.ofList) branches d.fallback)

def routeOf (f : NodeFunction) : Loose Route :=
  match f.decision with
  | some d => decisionRoute d
  | none =>
    match nonEmpty f.target with
    | some target => .ok (.direct target)
    | none => .ok .nowhere

def handlerOf (types : Registry) (f : NodeFunction) : Loose Handler := do
  let route ← routeOf f
  checkNumbers f.toSignature
  let typeName := types.nameOf? f.toSignature
  let reserved := handlerNames ++ typeName.toList ++ route.targets.map factoryName
  .ok ⟨f.toSignature, typeName, localNames reserved (propertyNames f.toSignature), route⟩

end

def globalHandlerOf (types : Registry) (f : Signature) : Handler :=
  let typeName := types.nameOf? f
  ⟨f, typeName, localNames (globalHandlerNames ++ typeName.toList) (propertyNames f), .nowhere⟩

/-! ## Handlers as text -/

namespace Handler

def localOf (h : Handler) (property : String) : String := (h.locals.lookup property).getD property

def bindings (h : Handler) (depth : Nat) : List String :=
  (propertyList h.function).map fun (name, p) =>
    let t := argumentType p
    indent depth ++ h.localOf name ++ ": " ++ t.hint ++ " = args.get(" ++ string name ++
      ", " ++ t.default ++ ")"

def resultExpression (h : Handler) : String :=
  match h.typeName with
  | none => "None"
  | some t =>
    t ++ "(" ++ commaSeparated ((propertyNames h.function).map fun p => p ++ "=" ++ h.localOf p) ++
      ")"

def resultHint (h : Handler) : String :=
  match h.typeName with
  | none => "None"
  | some t => t ++ " | None"

def head (h : Handler) (depth : Nat) (next : String) : String :=
  indent depth ++ "async def " ++ handlerName h.function.name ++
    "(args: FlowArgs, flow_manager: FlowManager) -> tuple[" ++ h.resultHint ++ ", " ++ next ++
    "]:"

end Handler

def Branch.line (b : Branch) (margin : String) : String :=
  margin ++ "(" ++ string b.operator.name ++ ", " ++ b.value ++ ", " ++ factoryName b.target ++ "),"

def indentAction (margin : String) (lines : List String) : List String :=
  (Text.indentLines margin.toList (lines.map String.toList)).map String.ofList

/-- What stands before the action of a decision. -/
def openingLines (margin : String) : List String :=
  [margin ++ "# Decision: the action below is evaluated at runtime and must assign `result`",
    margin ++ "result = None"]

/-- The choice of the next node, which stands behind the action of a decision. -/
def choiceLines (margin : String) (branches : List Branch) (fallback : String) : List String :=
  [margin ++ "next_node = _route_decision(",
    margin ++ indent 1 ++ "result,",
    margin ++ indent 1 ++ "["] ++
  branches.map (·.line (margin ++ indent 2)) ++
  [margin ++ indent 1 ++ "],",
    margin ++ indent 1 ++ "default=" ++ factoryName fallback ++ ",",
    margin ++ ")"]

def decisionLines (margin : String) (action : List String) (branches : List Branch)
    (fallback : String) : List String :=
  openingLines margin ++ indentAction margin action ++ choiceLines margin branches fallback

def Route.hint : Route → String
  | .nowhere => "NodeConfig | None"
  | _ => "NodeConfig"

/-- The end of a handler that gives `result`. -/
def Route.lines (depth : Nat) (result : String) : Route → List String
  | .decision action branches fallback =>
    decisionLines (indent depth) action branches fallback ++
      [indent depth ++ "return " ++ result ++ ", next_node"]
  | .direct target =>
    [indent depth ++ "return " ++ result ++ ", " ++ factoryName target ++ "()"]
  | .nowhere => [indent depth ++ "return " ++ result ++ ", None"]

def joinLines (ls : List String) : String := "\n".intercalate ls

/-- The text of a handler in pieces, each on lines of its own. -/
def Handler.pieces (h : Handler) (depth : Nat) : List String :=
  [h.head depth h.route.hint,
    indent (depth + 1) ++ "\"\"\"Handler for " ++ h.function.name ++ " function\"\"\""] ++
  h.bindings (depth + 1) ++
  [indent (depth + 1) ++ "# TODO: Implement function logic",
    indent (depth + 1) ++ "# Update flow_manager.state as needed"] ++
  h.route.lines (depth + 1) h.resultExpression

/-- A handler inside the factory of its node. -/
def Handler.text (h : Handler) (depth : Nat) : String := joinLines (h.pieces depth)

/-- A handler at the top level, which never leads to another node. -/
def Handler.globalText (h : Handler) : String :=
  joinLines (
    [h.head 0 "None", indent 1 ++ "\"\"\"Global function: " ++ h.function.name ++ "\"\"\""] ++
    h.bindings 1 ++
    [indent 1 ++ "# TODO: Implement " ++ h.function.name] ++
    Route.nowhere.lines 1 h.resultExpression)

/-! ## Descriptors -/

def propertyLines (depth : Nat) (f : Signature) : List String :=
  match propertyList f with
  | [] => [indent depth ++ "properties=\x7b\x7d,"]
  | ps =>
    [indent depth ++ "properties=\x7b"] ++
    (ps.map fun (name, p) =>
      indent (depth + 1) ++ string name ++ ": " ++ property (depth + 1) p ++ ",") ++
    [indent depth ++ "\x7d,"]

/-- The schema that a function is announced by, and its handler. -/
def descriptor (depth : Nat) (f : Signature) : String :=
  joinLines (
    [indent depth ++ descriptorName f.name ++ " = FlowsFunctionSchema(",
      indent (depth + 1) ++ "name=" ++ string f.name ++ ",",
      indent (depth + 1) ++ "handler=" ++ handlerName f.name ++ ",",
      indent (depth + 1) ++ "description=" ++ string f.description ++ ","] ++
    propertyLines (depth + 1) f ++
    [indent (depth + 1) ++ "required=" ++ stringList (f.required.getD []) ++ ",",
      indent depth ++ ")"])

def Handler.globalDefinition (h : Handler) : String :=
  h.globalText ++ "\n\n\n" ++ descriptor 0 h.function

end Dialogue.Script
