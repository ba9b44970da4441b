import Dialogue.Script.Factory
import Dialogue.Settings

/-!
# Generated modules

A flow becomes a module of its own: result types, the router if there are decisions, stubs of action
handlers, global functions, a factory for each node, and a sketch of how to run it all.
-/

namespace Dialogue.Script

structure Module where
  title : String
  host : String
  imports : List String
  types : Registry
  hasRouter : Bool
  stubs : List Stub
  globals : List Handler
  factories : List Factory
  /-- The node to start at. -/
  initial : String

def hostImports : List String :=
  ["FlowArgs", "FlowManager", "FlowResult", "FlowsFunctionSchema", "NodeConfig"]

def contextImports : List String := ["ContextStrategy", "ContextStrategyConfig"]

def routerNames : List String := ["operator", "_OPERATORS", "_route_decision"]

def hasDecisions (flow : Flow) : Bool :=
  flow.nodes.any fun n => n.data.functionList.any fun f => f.decision.isSome

def hasStrategies (flow : Flow) : Bool := flow.nodes.any fun n => (ownStrategy? n).isSome

def importsOf (flow : Flow) : List String :=
  hostImports ++ if hasStrategies flow then contextImports else []

def globalFunctions (flow : Flow) : List Signature := flow.globalFunctions.getD []

/-- All functions: those of the nodes first, then the global ones. -/
def functionsOf (flow : Flow) : List Signature :=
  flow.nodes.flatMap (fun n => n.data.functionList.map (·.toSignature)) ++ globalFunctions flow

def typesOf (flow : Flow) : Registry :=
  Registry.ofFunctions (hostImports ++ contextImports) (functionsOf flow)

/-- The names that the module defines apart from stubs. -/
def definedNames (flow : Flow) : List String :=
  importsOf flow ++ (typesOf flow).names ++ routerNames ++
    (globalFunctions flow).map (fun f => handlerName f.name) ++
    (globalFunctions flow).map (fun f => descriptorName f.name) ++
    flow.nodes.map fun n => factoryName n.id

/-- The first initial node, or else the first node. -/
def initialNode (nodes : List FlowNode) : String :=
  match nodes.find? fun n => n.data.role = .initial with
  | some n => n.id
  | none => (nodes.head?.map (·.id)).getD ""

def moduleOf [Literal.CharNames] (settings : Settings) (flow : Flow) : Loose Module := do
  let types := typesOf flow
  let factories ← flow.nodes.mapM (factoryOf types)
  (globalFunctions flow).forM checkNumbers
  .ok {
    title := docText flow.info.name
    host := settings.hostModule
    imports := importsOf flow
    types
    hasRouter := hasDecisions flow
    stubs := freeStubs (definedNames flow) (calledStubs flow.nodes)
    globals := (globalFunctions flow).map (globalHandlerOf types)
    factories
    initial := initialNode flow.nodes }

/-! ## Modules as text -/

def routerLines : List String := [
  "",
  "_OPERATORS = \x7b",
  "    \"<\": operator.lt,",
  "    \"<=\": operator.le,",
  "    \"==\": operator.eq,",
  "    \">=\": operator.ge,",
  "    \">\": operator.gt,",
  "    \"!=\": operator.ne,",
  "    \"in\": lambda result, value: result in value,",
  "    \"not in\": lambda result, value: result not in value,",
  "    \"not\": lambda result, value: not result,",
  "\x7d",
  "",
  "",
  "def _route_decision(result, branches, default):",
  "    \"\"\"Return the node of the first branch whose condition holds for `result`, " ++
    "else the default.\"\"\"",
  "    for op, value, create_node in branches:",
  "        try:",
  "            matched = _OPERATORS[op](result, value)",
  "        except TypeError:",
  "            matched = False",
  "        if matched:",
  "            return create_node()",
  "    return default()",
  ""]

def usageLines (initial : String) (globals : List Handler) : List String := [
  "# FlowManager Setup",
  "#",
  "# Initialize the FlowManager in your bot setup:",
  "#",
  "# async def run_bot(transport: BaseTransport, runner_args: RunnerArguments):",
  "#     stt = DeepgramSTTService(api_key=os.getenv(\"DEEPGRAM_API_KEY\"))",
  "#     tts = CartesiaTTSService(api_key=os.getenv(\"CARTESIA_API_KEY\"))",
  "#     llm = create_llm()  # Your LLM service",
  "#",
  "#     context = LLMContext()",
  "#     context_aggregator = LLMContextAggregatorPair(context)",
  "#",
  "#     pipeline = Pipeline([",
  "#         transport.input(),",
  "#         stt,",
  "#         context_aggregator.user(),",
  "#         llm,",
  "#         tts,",
  "#         transport.output(),",
  "#         context_aggregator.assistant(),",
  "#     ])",
  "#",
  "#     task = PipelineTask(pipeline, params=PipelineParams(allow_interruptions=True))",
  "#",
  "#     flow_manager = FlowManager(",
  "#         task=task,",
  "#         llm=llm,",
  "#         context_aggregator=context_aggregator,",
  "#         transport=transport,",
  "#         global_functions=[" ++
    commaSeparated (globals.map fun h => descriptorName h.function.name) ++ "],",
  "#     )",
  "#",
  "#     @transport.event_handler(\"on_client_connected\")",
  "#     async def on_client_connected(transport, client):",
  "#         logger.info(\"Client connected\")",
  "#         # Start the flow with the initial node",
  "#         await flow_manager.initialize(" ++ factoryName initial ++ "())",
  ""]

def headText (m : Module) : String :=
  joinLines [
    "\"\"\"Generated Pipecat Flow: " ++ m.title,
    "",
    "This file was generated from the visual flow editor.",
    "Customize the function handlers to implement your flow logic.",
    "\"\"\"",
    ""]

def importText (m : Module) : String :=
  (if m.hasRouter then "import operator\n" else "") ++ "from " ++ m.host ++ " import (\n" ++
    String.join (m.imports.map fun name => indent 1 ++ name ++ ",\n") ++ ")\n"

def titled (title : String) (items : List String) : String :=
  "\n# " ++ title ++ "\n" ++ String.join items

/-- A section that is left out when it is empty. -/
def optionalSection (title : String) (items : List String) : String :=
  if items.isEmpty then "" else titled title items

/-- A definition with the empty lines around it. -/
def spaced (s : String) : String := "\n" ++ s ++ "\n\n"

def Module.text (m : Module) : String :=
  headText m ++ importText m ++
    titled "Type definitions" (m.types.map fun t => "\n" ++ t.definition) ++
    (if m.hasRouter then titled "Decision routing" [joinLines routerLines] else "") ++
    optionalSection "Action handlers" (m.stubs.map fun s => spaced s.text) ++
    optionalSection "Global functions" (m.globals.map fun h => spaced h.globalDefinition) ++
    titled "Node creation functions" (m.factories.map fun f => spaced f.text) ++
    "\n" ++ joinLines (usageLines m.initial m.globals)

/-- The module of a flow. -/
def generate [Literal.CharNames] (settings : Settings) (flow : Flow) : Loose String :=
  return (← moduleOf settings flow).text

end Dialogue.Script
