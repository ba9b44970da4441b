import Dialogue.Proofs.Check.Routing
import Dialogue.Proofs.Graph.Expansion
import Dialogue.Proofs.Script.Bindings

/-!
# Graph and generated module agree on routes

For a flow that may be exported, the edges of its graph end at nodes of the graph, the handler of a
function leads where the edges of the function lead, and every factory that a handler or the usage
sketch names is defined once.
-/

namespace Dialogue.Script

open Dialogue.Graph (Edge Node functionEdges)
open Document (listOf)
open Literal (CharNames)

/-! ## Handlers -/

/-- A handler goes where its function does, in order. -/
theorem targets_of_routeOf [CharNames] {f : NodeFunction} {r : Route} (h : routeOf f = .ok r) :
    r.targets = f.routes := by
  unfold routeOf at h
  split at h
  case h_1 d decided =>
    obtain ⟨branches, run, rest⟩ := bind_eq_ok.1 h
    obtain rfl := Except.ok.inj rest
    have targets : d.conditions.map (·.target) = branches.map (·.target) :=
      map_of_forall₂ (mapM_eq_ok.1 run) fun c b read => by
        obtain ⟨value, -, same⟩ := bind_eq_ok.1 read
        rw [← Except.ok.inj same]
    simp [Route.targets, NodeFunction.routes, decided, Decision.targets, targets]
  case h_2 undecided =>
    have direct : f.directTarget? = nonEmpty f.target := by
      cases t : f.target with
      | none => simp [NodeFunction.directTarget?, undecided, t, nonEmpty]
      | some t' =>
        by_cases empty : t' = "" <;>
          simp [NodeFunction.directTarget?, undecided, t, nonEmpty, empty, Option.filter]
    simp only [NodeFunction.routes, undecided, direct]
    split at h
    case h_1 target found =>
      obtain rfl := Except.ok.inj h
      simp [found, Route.targets]
    case h_2 none =>
      obtain rfl := Except.ok.inj h
      simp [none, Route.targets]

theorem targets_of_handlerOf [CharNames] {types : Registry} {f : NodeFunction} {h : Handler}
    (made : handlerOf types f = .ok h) : h.route.targets = f.routes := by
  obtain ⟨route, routed, -, rfl⟩ := handlerOf_eq_ok.1 made
  exact targets_of_routeOf routed

/-! ## Factories named in code -/

/-- Marks that stand behind a name at the end of a line. -/
def closingMarks : List Char := ['(', ')', ',']

/-- The name that a line ends in, apart from closing marks. -/
def finalName (line : String) : String :=
  String.ofList
    ((line.toList.reverse.dropWhile (· ∈ closingMarks)).takeWhile (· ∉ delimiters)).reverse

def isFactoryName (name : String) : Prop :=
  "create_".toList <+: name.toList ∧ "_node".toList <:+ name.toList

instance (name : String) : Decidable (isFactoryName name) := inferInstanceAs (Decidable (_ ∧ _))

/-- The factory that a line ends in, if it ends in one. -/
def factoryIn? (line : String) : Option String :=
  if isFactoryName (finalName line) then some (finalName line) else none

theorem isFactoryName_factoryName (id : String) : isFactoryName (factoryName id) := by
  have chars : (factoryName id).toList = "create_".toList ++ (id.toList ++ "_node".toList) := by
    simp [factoryName]
  rw [isFactoryName, chars]
  exact ⟨List.prefix_append .., ⟨"create_".toList ++ id.toList, by simp⟩⟩

theorem getLast?_append {s t : String} {c : Char} (last : t.toList.getLast? = some c) :
    (s ++ t).toList.getLast? = some c := by
  rw [String.toList_append, List.getLast?_append, last]
  rfl

/-- The last name on a line is what stands between a delimiter and the closing marks. -/
theorem finalName_append {front name marks : String} {c : Char}
    (last : front.toList.getLast? = some c) (delimiter : c ∈ delimiters)
    (unbroken : IsUnbroken name) (named : name ≠ "")
    (closing : ∀ d ∈ marks.toList, d ∈ closingMarks) :
    finalName (front ++ name ++ marks) = name := by
  have plain : ∀ d ∈ name.toList.reverse, d ∉ delimiters := fun d member =>
    unbroken d (List.mem_reverse.1 member)
  obtain ⟨before, split⟩ := List.getLast?_eq_some_iff.1 last
  obtain ⟨d, ds, chars⟩ := List.exists_cons_of_ne_nil (l := name.toList.reverse) (by simpa)
  have closed : (front ++ name ++ marks).toList.reverse.dropWhile (· ∈ closingMarks) =
      name.toList.reverse ++ c :: before.reverse := by
    have within : closingMarks ⊆ delimiters := by decide
    have first := plain d (by simp [chars])
    rw [String.toList_append, List.reverse_append,
      List.dropWhile_append_of_pos (by simpa using closing), String.toList_append,
      List.reverse_append, split, List.reverse_append, chars]
    exact List.dropWhile_cons_of_neg (by simpa using fun mark => first (within mark))
  rw [finalName, closed, List.takeWhile_append_of_pos (by simpa using plain),
    List.takeWhile_cons_of_neg (by simpa using delimiter), List.append_nil, List.reverse_reverse,
    String.ofList_toList]

/-- A line that ends by calling a factory names it. -/
theorem factoryIn?_factory {front id marks : String} {c : Char}
    (last : front.toList.getLast? = some c) (delimiter : c ∈ delimiters) (unbroken : IsUnbroken id)
    (closing : ∀ d ∈ marks.toList, d ∈ closingMarks) :
    factoryIn? (front ++ factoryName id ++ marks) = some (factoryName id) := by
  have whole : IsUnbroken (factoryName id) :=
    (IsUnbroken.append (by decide) unbroken).append (by decide)
  have named : factoryName id ≠ "" := by simp [factoryName, ← String.toList_inj]
  rw [factoryIn?, finalName_append last delimiter whole named closing,
    if_pos (isFactoryName_factoryName id)]

/-- What stands before a space does not count. -/
theorem factoryIn?_append {front : String} (last : front.toList.getLast? = some ' ')
    (line : String) : factoryIn? (front ++ line) = factoryIn? line := by
  have same : finalName (front ++ line) = finalName line := by
    obtain ⟨before, split⟩ := List.getLast?_eq_some_iff.1 last
    have stops : (' ' :: before.reverse).takeWhile (· ∉ delimiters) = [] :=
      List.takeWhile_cons_of_neg (by decide)
    rw [finalName, finalName, String.toList_append, List.reverse_append, split,
      List.reverse_append, List.dropWhile_append]
    split
    case isTrue closed =>
      have other : (' ' :: before.reverse).dropWhile (· ∈ closingMarks) = ' ' :: before.reverse :=
        List.dropWhile_cons_of_neg (by decide)
      rw [List.isEmpty_iff.1 closed, List.reverse_singleton, List.singleton_append, other, stops]
      rfl
    case isFalse =>
      rw [List.reverse_singleton, List.singleton_append, List.takeWhile_append, stops]
      split
      case isTrue all => rw [List.append_nil, (List.takeWhile_prefix _).eq_of_length all]
      case isFalse => rfl
  rw [factoryIn?, factoryIn?, same]

/-- The end of a handler; in one with a decision, all that stands behind the action. -/
def Route.ending (depth : Nat) (result : String) : Route → List String
  | .decision _ branches fallback =>
    choiceLines (indent depth) branches fallback ++
      [indent depth ++ "return " ++ result ++ ", next_node"]
  | route => route.lines depth result

/-- The lines of a handler end by the lines of its route. -/
theorem Handler.exists_ending (h : Handler) (depth : Nat) :
    ∃ front, h.pieces depth = front ++ h.route.ending (depth + 1) h.resultExpression := by
  obtain ⟨front, same⟩ : ∃ front, h.route.lines (depth + 1) h.resultExpression =
      front ++ h.route.ending (depth + 1) h.resultExpression := by
    cases h.route with
    | decision action branches fallback =>
      exact ⟨openingLines _ ++ indentAction _ action, List.append_assoc ..⟩
    | direct target => exact ⟨[], rfl⟩
    | nowhere => exact ⟨[], rfl⟩
  rw [Handler.pieces, same, ← List.append_assoc]
  exact ⟨_, rfl⟩

theorem getLast?_indent (depth : Nat) : (indent (depth + 1)).toList.getLast? = some ' ' := by
  simp [indent, List.getLast?_replicate]

/-- The lines of a choice name every branch and then the default. -/
theorem filterMap_choiceLines {margin : String} (last : margin.toList.getLast? = some ' ')
    {branches : List Branch} {fallback : String}
    (unbroken : ∀ t ∈ branches.map (·.target) ++ [fallback], IsUnbroken t) :
    (choiceLines margin branches fallback).filterMap factoryIn? =
      (branches.map (·.target) ++ [fallback]).map factoryName := by
  simp only [List.forall_mem_append, List.forall_mem_map, List.forall_mem_singleton] at unbroken
  obtain ⟨branch, default⟩ := unbroken
  have deeper : (margin ++ indent 1).toList.getLast? = some ' ' :=
    getLast?_append (getLast?_indent 0)
  have opening : factoryIn? "next_node = _route_decision(" = none := by decide +kernel
  have fixed : factoryIn? "result," = none ∧ factoryIn? "[" = none ∧ factoryIn? "]," = none ∧
      factoryIn? ")" = none := by decide
  have lines : (branches.map (·.line (margin ++ indent 2))).filterMap factoryIn? =
      branches.map fun b => factoryName b.target := by
    rw [List.filterMap_map, ← List.filterMap_eq_map]
    refine List.filterMap_congr fun b member => ?_
    have space : (margin ++ indent 2 ++ "(" ++ string b.operator.name ++ ", " ++ b.value ++
        ", ").toList.getLast? = some ' ' := getLast?_append (by simp)
    have marks : ∀ c ∈ "),".toList, c ∈ closingMarks := by simp [closingMarks]
    rw [Function.comp_apply, Function.comp_apply, Branch.line]
    exact factoryIn?_factory space (by decide) (branch b member) marks
  have equals : (margin ++ indent 1 ++ "default=").toList.getLast? = some '=' :=
    getLast?_append (by simp)
  have otherwise := factoryIn?_factory equals (by decide) default
    (show ∀ c ∈ ",".toList, c ∈ closingMarks by simp [closingMarks])
  simp [choiceLines, factoryIn?_append last, factoryIn?_append deeper, opening, fixed, lines,
    otherwise]

/-- A handler stands in the text of a factory, and leads where its route says. -/
structure Handler.StandsIn (h : Handler) (c : Factory) : Prop where
  text : h.text 1 ∈ c.pieces
  ending : ∃ front, h.pieces 1 = front ++ h.route.ending 2 h.resultExpression
  /-- The end names the factories of the route, in the order in which they are tried. -/
  names : (h.route.ending 2 h.resultExpression).filterMap factoryIn? =
    h.route.targets.map factoryName

/-- The end of a handler names the factories that the handler leads to, in order. -/
theorem filterMap_ending {r : Route} (unbroken : ∀ t ∈ r.targets, IsUnbroken t) (depth : Nat)
    (result : String) :
    (r.ending (depth + 1) result).filterMap factoryIn? = r.targets.map factoryName := by
  have behind : (indent (depth + 1) ++ "return " ++ result ++ ", ").toList.getLast? = some ' ' :=
    getLast?_append (by simp)
  have fixed : factoryIn? "next_node" = none ∧ factoryIn? "None" = none := by decide
  cases r with
  | decision action branches fallback =>
    have choice := filterMap_choiceLines (getLast?_indent depth) unbroken
    have word : ", next_node" = ", " ++ "next_node" := rfl
    simp only [Route.ending, List.filterMap_append, choice, word, ← String.append_assoc]
    simp [factoryIn?_append behind, fixed, Route.targets]
  | direct target =>
    have named := factoryIn?_factory behind (by decide) (unbroken target (.head _))
      (show ∀ c ∈ "()".toList, c ∈ closingMarks by simp [closingMarks])
    simp [Route.ending, Route.lines, named, Route.targets]
  | nowhere =>
    have word : ", None" = ", " ++ "None" := rfl
    simp only [Route.ending, Route.lines, word, ← String.append_assoc]
    simp [factoryIn?_append behind, fixed, Route.targets]

/-- The usage sketch ends by naming the factory of the node to start at. -/
theorem factoryIn?_usageLines {initial : String} (unbroken : IsUnbroken initial)
    (globals : List Handler) :
    (usageLines initial globals).dropLast.getLast?.bind factoryIn? =
      some (factoryName initial) := by
  have opened : "#         await flow_manager.initialize(".toList.getLast? = some '(' := by simp
  have ending : (usageLines initial globals).dropLast.getLast? =
      some ("#         await flow_manager.initialize(" ++ factoryName initial ++ "())") := by
    simp [usageLines]
  rw [ending, Option.bind_some]
  exact factoryIn?_factory opened (by decide) unbroken (by simp [closingMarks])

/-! ## Modules -/

theorem initialNode_mem {ns : List FlowNode} (someNode : ns ≠ []) :
    initialNode ns ∈ ns.map (·.id) := by
  unfold initialNode
  split
  case h_1 n found => exact List.mem_map_of_mem (List.mem_of_find?_eq_some found)
  case h_2 =>
    cases ns with
    | nil => exact absurd rfl someNode
    | cons n ns => simp

/-! ## Agreement -/

/-- The edges of a flow's graph, the handlers of its functions and the factories of its module go
together. -/
structure RoutesAgree [CharNames] (settings : Settings) (f : Flow) (nodes : List Node)
    (edges : List Edge) : Prop where
  /-- Every edge joins nodes of the graph. -/
  ends : ∀ e ∈ edges, ∃ s ∈ nodes, ∃ t ∈ nodes, e.source = .text s.id ∧ e.target = .text t.id
  /-- The handler of a function leads where the edges of the function lead. -/
  routes : ∀ n ∈ f.nodes, ∃ m ∈ nodes, m.id = n.id ∧ m.isDecision = false ∧
    ∃ fs, m.functions = .ok fs ∧ List.Forall₂ (fun es g =>
      ∃ out, functionEdges (.text m.id) es = .ok out ∧ (∀ e ∈ out, e ∈ edges) ∧
        ∀ types h, handlerOf types g = .ok h →
          (Graph.onward m.id g.name out).map (·.target) = h.route.targets.map .text)
      fs n.data.functionList
  /-- The module has a factory for each node, with a handler for each of its functions. -/
  handlers : ∀ m, moduleOf settings f = .ok m → List.Forall₂ (fun c n => c.node = n ∧
    List.Forall₂ (fun h g => handlerOf (typesOf f) g = .ok h) c.handlers n.data.functionList)
    m.factories f.nodes
  /-- The module defines once what its handlers and its usage sketch name. -/
  factories : ∀ m, moduleOf settings f = .ok m → ∀ name,
    (name = factoryName m.initial ∨
      ∃ c ∈ m.factories, ∃ h ∈ c.handlers, name ∈ h.route.targets.map factoryName) →
    (m.factories.map fun c => factoryName c.node.id).count name = 1
  /-- The text of the module binds the names that are counted, those of factories among them. -/
  binds : ∀ m, moduleOf settings f = .ok m → m.Binds
  /-- The texts of handlers stand in those of factories, and lead to the factories of routes. -/
  texts : ∀ m, moduleOf settings f = .ok m → ∀ c ∈ m.factories, ∀ h ∈ c.handlers, h.StandsIn c
  /-- The usage sketch ends by naming the factory of the first node. -/
  sketch : ∀ m, moduleOf settings f = .ok m →
    (usageLines m.initial m.globals).dropLast.getLast?.bind factoryIn? =
      some (factoryName m.initial)
  /-- There is such a module unless the value of a condition or a number cannot be written. -/
  failures : ∀ e, moduleOf settings f = .error e → Obstacle f e

section

variable {settings : Settings} {f : Flow} {edges : List Edge}

/-- Every edge joins two nodes of the canvas. -/
theorem ends_of_whole (lawful : f.Lawful) (whole : f.Whole)
    (derived : Graph.deriveEdges (Graph.expansion settings f.nodes) = .ok edges) :
    ∀ e ∈ edges, ∃ s ∈ Graph.expansion settings f.nodes,
      ∃ t ∈ Graph.expansion settings f.nodes, e.source = .text s.id ∧ e.target = .text t.id := by
  intro e member
  obtain ⟨m, there, notDecision, fs, functions, es, found, out, run, here⟩ :=
    (Graph.mem_deriveEdges derived).1 member
  obtain ⟨n, owner, rfl⟩ := Graph.mem_expansion there notDecision
  rw [Graph.functions_ofNode (lawful.nodes n owner)] at functions
  obtain rfl := Except.ok.inj functions
  obtain ⟨g, called, rfl⟩ := List.mem_map.1 found
  have named := Identifier.ne_empty_of_isIdentifier ((lawful.nodes n owner).names g called)
  obtain ⟨onward, same, routes⟩ := Graph.functionEdges_of_shownBy n.id g.shownBy_entries named
  obtain rfl := Except.ok.inj (run.symm.trans same)
  have start : ∃ s ∈ Graph.expansion settings f.nodes, s.id = Graph.startOf n.id g := by
    unfold Graph.startOf
    split
    · exact Graph.exists_node_of_decision settings owner called ‹_›
    · exact Graph.exists_node_of_mem_ids settings (List.mem_map_of_mem owner)
  -- The edge hands over to the decision of the function, or it is one of its routes.
  rcases List.mem_append.1 here with here | here
  · split at here
    case isFalse => cases here
    case isTrue decided =>
      obtain rfl := List.mem_singleton.1 here
      obtain ⟨t, target, id⟩ := Graph.exists_node_of_decision settings owner called decided
      exact ⟨Node.ofNode n, there, t, target, rfl, by rw [id]; rfl⟩
  · obtain ⟨t, leads, source, target⟩ := exists_of_mem_left routes here
    obtain ⟨s, starts, sourceId⟩ := start
    obtain ⟨m, stops, targetId⟩ :=
      Graph.exists_node_of_mem_ids settings (whole.routes n owner g called t leads)
    exact ⟨s, starts, m, stops, by rw [source, sourceId], by rw [target, targetId]⟩

/-- The edges of a function lead on to the targets of its handler. -/
theorem routes_of_whole [CharNames] (lawful : f.Lawful) (whole : f.Whole)
    (derived : Graph.deriveEdges (Graph.expansion settings f.nodes) = .ok edges) {n : FlowNode}
    (owner : n ∈ f.nodes) : List.Forall₂ (fun es g =>
      ∃ out, functionEdges (.text n.id) es = .ok out ∧ (∀ e ∈ out, e ∈ edges) ∧
        ∀ types h, handlerOf types g = .ok h →
          (Graph.onward n.id g.name out).map (·.target) = h.route.targets.map .text)
      (n.data.functionList.map NodeFunction.entries) n.data.functionList := by
  rw [List.forall₂_map_left_iff, List.forall₂_same]
  intro g called
  have named := Identifier.ne_empty_of_isIdentifier ((lawful.nodes n owner).names g called)
  obtain ⟨onward, run, routes⟩ := Graph.functionEdges_of_shownBy n.id g.shownBy_entries named
  have free : ∀ t ∈ g.routes, Identifier.HyphenFree t := fun t leads =>
    lawful.hyphenFree t (whole.routes n owner g called t leads)
  refine ⟨_, run, fun e member => ?_, fun types h made => ?_⟩
  · exact (Graph.mem_deriveEdges derived).2 ⟨Node.ofNode n,
      List.mem_append_left _ (List.mem_map_of_mem owner), Graph.isDecision_ofNode n, _,
      Graph.functions_ofNode (lawful.nodes n owner), _, List.mem_map_of_mem called, _, run, member⟩
  · rw [Graph.onward_of_forall₂ routes free, targets_of_handlerOf made]
    exact map_of_forall₂ routes fun _ _ h => h.2

/-- The initial node is one of the flow. -/
theorem initial_mem_ids [CharNames] (lawful : f.Lawful) {m : Module}
    (made : moduleOf settings f = .ok m) : m.initial ∈ f.ids := by
  rw [(factories_of_moduleOf made).2]
  exact initialNode_mem lawful.someNode

/-- What a handler or the note on use calls is defined once. -/
theorem factories_of_whole [CharNames] (lawful : f.Lawful) (whole : f.Whole) {m : Module}
    (made : moduleOf settings f = .ok m) {name : String} (named : name = factoryName m.initial ∨
      ∃ c ∈ m.factories, ∃ h ∈ c.handlers, name ∈ h.route.targets.map factoryName) :
    (m.factories.map fun c => factoryName c.node.id).count name = 1 := by
  obtain ⟨factories, -⟩ := factories_of_moduleOf made
  have defined : m.factories.map (fun c => factoryName c.node.id) = f.ids.map factoryName := by
    rw [Flow.ids, List.map_map]
    exact map_of_forall₂ factories fun c n h => by simp [h.1]
  rw [defined]
  refine List.count_eq_one_of_mem (whole.ids.map factoryName_injective) ?_
  rcases named with rfl | ⟨c, factory, h, handler, leads⟩
  · exact List.mem_map_of_mem (initial_mem_ids lawful made)
  · obtain ⟨n, owner, rfl, handlers⟩ := exists_of_mem_left factories factory
    obtain ⟨g, called, made⟩ := exists_of_mem_left handlers handler
    obtain ⟨t, target, rfl⟩ := List.mem_map.1 leads
    rw [targets_of_handlerOf made] at target
    exact List.mem_map_of_mem (whole.routes c.node owner g called t target)

end

theorem unbroken_of_mem_ids {d : Document} (checked : Flow.check d = .ok f) :
    ∀ id ∈ f.ids, IsUnbroken id := fun id member =>
  unbroken_of_isIdentifier (Flow.identifiers_of_check checked id
    (List.mem_append_left _ (List.mem_append_left _ member)))

/-- The text of every handler stands in the text of its factory. -/
theorem texts_of_whole [CharNames] {d : Document} (checked : Flow.check d = .ok f)
    (whole : f.Whole) {m : Module} (made : moduleOf settings f = .ok m) {c : Factory}
    (factory : c ∈ m.factories) {h : Handler} (handler : h ∈ c.handlers) : h.StandsIn c := by
  obtain ⟨n, owner, rfl, handlers⟩ := exists_of_mem_left (factories_of_moduleOf made).1 factory
  obtain ⟨g, called, built⟩ := exists_of_mem_left handlers handler
  have unbroken : ∀ t ∈ h.route.targets, IsUnbroken t := by
    rw [targets_of_handlerOf built]
    exact fun t leads => unbroken_of_mem_ids checked t (whole.routes c.node owner g called t leads)
  refine ⟨?_, h.exists_ending 1, filterMap_ending unbroken 1 _⟩
  have defined : h.text 1 ∈ c.functionLines := by
    have some : c.handlers.isEmpty = false :=
      List.isEmpty_eq_false_iff.2 (List.ne_nil_of_mem handler)
    rw [Factory.functionLines, some]
    exact List.mem_append_left _ (List.mem_append_left _ (List.mem_append_left _
      (List.mem_flatMap.2 ⟨h, handler, by simp⟩)))
  simp [Factory.pieces, defined]

/-- The check, the graph and the generated module of a flow agree on where its functions lead. -/
theorem routesAgree_of_exportable [CharNames] (settings : Settings) {d : Document} {f : Flow}
    (exported : Check.exportable d = .ok f) :
    ∃ nodes edges, Graph.ofFlow settings f.normalize.document = .ok (nodes, edges) ∧
      RoutesAgree settings f nodes edges := by
  obtain ⟨checked, whole⟩ := Check.exportable_eq_ok.1 exported
  have lawful := (Flow.shownIn_of_check checked).2
  obtain ⟨edges, expands, derived⟩ := Graph.ofFlow_normalize settings lawful whole.ids whole.names
  refine ⟨_, edges, expands, ends_of_whole lawful whole derived, fun n owner => ?_,
    fun m made => (factories_of_moduleOf made).1,
    fun m made name named => factories_of_whole lawful whole made named,
    fun m made => binds_of_moduleOf checked made,
    fun m made c factory h handler => texts_of_whole checked whole made factory handler,
    fun m made =>
      factoryIn?_usageLines (unbroken_of_mem_ids checked _ (initial_mem_ids lawful made)) _,
    fun e fails => obstacle_of_moduleOf fails⟩
  exact ⟨Node.ofNode n, List.mem_append_left _ (List.mem_map_of_mem owner), rfl,
    Graph.isDecision_ofNode n, _, Graph.functions_ofNode (lawful.nodes n owner),
    routes_of_whole lawful whole derived owner⟩

theorem routesAgree_sample : ∃ nodes edges,
    Graph.ofFlow {} Flow.sample.normalize.document = .ok (nodes, edges) ∧
      RoutesAgree {} Flow.sample nodes edges :=
  routesAgree_of_exportable {}
    (show Check.exportable Flow.sample.document = .ok Flow.sample from rfl)

end Dialogue.Script
