import Dialogue.Proofs.Script.Bindings

/-!
# The scope of a factory

The body of a factory defines the handlers of its functions, then makes a descriptor of each, which
holds whatever its handler's name refers to at that time, and lists the descriptors at the end. All
of these names share one scope: a descriptor that is called like a later function's handler takes
its place there.
-/

namespace Dialogue.Script

open Literal (CharNames)

/-! ## What the body does -/

/-- What a name of the scope refers to. -/
inductive Object where
  | handler (function : Signature)
  | descriptor (function : Signature) (handler : Object)

/-- The bindings of a body that has come so far, the latest first. -/
abbrev Scope := List (String × Object)

def Scope.read (s : Scope) (name : String) : Option Object := s.lookup name

inductive Statement where
  | define (h : Handler)
  | announce (f : Signature)

namespace Statement

def name : Statement → String
  | define h => handlerName h.function.name
  | announce f => descriptorName f.name

def text : Statement → String
  | define h => h.text 1
  | announce f => descriptor 1 f

/-- A descriptor reads its handler from the scope; it fails where the name is not bound. -/
def run (s : Scope) : Statement → Option Scope
  | define h => some ((handlerName h.function.name, .handler h.function) :: s)
  | announce f => do
    let held ← s.read (handlerName f.name)
    some ((descriptorName f.name, .descriptor f held) :: s)

end Statement

def execute (s : Scope) : List Statement → Option Scope
  | [] => some s
  | st :: sts => do execute (← st.run s) sts

namespace Factory

variable (c : Factory)

def definitions : List Statement := c.handlers.map .define

def announcements : List Statement := c.handlers.map fun h => .announce h.function

/-- The names bound in the body, each as often as it is bound. -/
def localNames : List String := (c.definitions ++ c.announcements).map Statement.name

/-- The names in the list of functions. -/
def listed : List String := c.handlers.map fun h => descriptorName h.function.name

/-- The functions that the factory lists when it runs. -/
def run : Option (List Object) := do
  let scope ← execute [] (c.definitions ++ c.announcements)
  c.listed.mapM scope.read

/-- The lines before the node are the definitions and then the descriptors' announcements. -/
theorem functionLines_eq : c.functionLines = if c.handlers.isEmpty then [] else
    c.definitions.flatMap (fun s => ["", s.text]) ++ [""] ++
      c.announcements.map Statement.text ++ [""] := by
  simp only [functionLines, definitions, announcements, List.flatMap_map, List.map_map]
  rfl

/-- The node lists the functions of its handlers. -/
theorem functionArgument_eq : functionArgument c.handlers = if c.handlers.isEmpty then [] else
    [indent 2 ++ "functions=[" ++ commaSeparated c.listed ++ "],"] := rfl

theorem localNames_eq : c.localNames = globalNames (c.handlers.map (·.function)) := by
  simp [localNames, definitions, announcements, globalNames, Statement.name, Function.comp_def]

end Factory

/-! ## The text of a body -/

/-- How the text of a factory spells out what its body does. -/
structure Factory.Spells (c : Factory) : Prop where
  /-- The body stands between its title and the configuration that it returns, with functions. -/
  body : ∃ title rest, c.pieces = ["def " ++ factoryName c.node.id ++ "() -> NodeConfig:",
      indent 1 ++ title] ++ c.functionLines ++ [indent 1 ++ "return NodeConfig("] ++ rest ∧
    functionArgument c.handlers <:+: rest
  /-- It is made of the statements, in order. -/
  statements : c.functionLines = if c.handlers.isEmpty then [] else
    c.definitions.flatMap (fun s => ["", s.text]) ++ [""] ++
      c.announcements.map Statement.text ++ [""]
  /-- The functions of the configuration are the descriptors listed. -/
  listing : functionArgument c.handlers = if c.handlers.isEmpty then [] else
    [indent 2 ++ "functions=[" ++ commaSeparated c.listed ++ "],"]
  /-- Each statement binds its name. -/
  binds : ∀ s ∈ c.definitions ++ c.announcements, ∃ d, s.text = indent 1 ++ d ∧ boundBy d = s.name
  /-- A descriptor refers to its handler by name. -/
  reads : ∀ h ∈ c.handlers, ∃ front rest, (Statement.announce h.function).text = joinLines
    (front ++ [indent 2 ++ "handler=" ++ handlerName h.function.name ++ ","] ++ rest)

/-- The text of a factory shows the statements that are run. -/
theorem Factory.spells_of_identifiers {c : Factory}
    (valid : ∀ h ∈ c.handlers, Identifier.isIdentifier h.function.name) : c.Spells where
  body := by
    have argument : functionArgument c.handlers <:+: (indent 2 ++ "name=" ++ string c.node.id ++
        ",") :: (messageArgument "role_messages" c.node.data.roleMessages ++
        messageArgument "task_messages" c.node.data.taskMessages ++ functionArgument c.handlers ++
        (actionArgument "pre_actions" c.node.data.preActions ++
          actionArgument "post_actions" c.node.data.postActions ++
          ((ownStrategy? c.node).map strategyArgument).getD [] ++
          respondArgument c.node.data.respondImmediately ++ [indent 1 ++ ")"])) :=
      List.infix_cons (List.infix_append ..)
    refine ⟨"\"\"\"Create the " ++ nodeTitle c.node ++ " node.\"\"\"", _, ?_, argument⟩
    simp [pieces, String.append_assoc]
  statements := c.functionLines_eq
  listing := c.functionArgument_eq
  binds s member := by
    rcases List.mem_append.1 member with defined | announced
    · obtain ⟨h, handler, rfl⟩ := List.mem_map.1 defined
      obtain ⟨rest, text⟩ := Module.exists_text h 1
      have unbroken : IsUnbroken (handlerName h.function.name) :=
        IsUnbroken.append (by decide) (unbroken_of_isIdentifier (valid h handler))
      exact ⟨_, text, boundBy_async unbroken rest⟩
    · obtain ⟨h, handler, rfl⟩ := List.mem_map.1 announced
      obtain ⟨rest, text⟩ := Module.exists_descriptor 1 h.function
      have unbroken : IsUnbroken (descriptorName h.function.name) :=
        (unbroken_of_isIdentifier (valid h handler)).append (by decide)
      exact ⟨_, text, Module.boundBy_descriptor unbroken rest⟩
  reads h _ := ⟨[_, _], _, rfl⟩

/-! ## Running it -/

theorem execute_append (s : Scope) (before after : List Statement) :
    execute s (before ++ after) = (execute s before).bind (execute · after) := by
  induction before generalizing s with
  | nil => rfl
  | cons st sts ih =>
    simp only [List.cons_append, execute]
    cases st.run s with
    | none => rfl
    | some s' => exact ih s'

theorem read_cons (s : Scope) (name other : String) (o : Object) :
    Scope.read ((other, o) :: s) name = if name = other then some o else s.read name := by
  by_cases same : name = other
  · simp [Scope.read, same]
  · simp [Scope.read, List.lookup_cons, beq_false_of_ne same, same]

/-- The handlers are all bound before the first descriptor is made. -/
theorem exists_execute_definitions (s : Scope) {hs : List Handler}
    (names : (hs.map fun h => h.function.name).Nodup) :
    ∃ s', execute s (hs.map .define) = some s' ∧
      (∀ h ∈ hs, s'.read (handlerName h.function.name) = some (.handler h.function)) ∧
      ∀ name ∉ hs.map (fun h => handlerName h.function.name), s'.read name = s.read name := by
  induction hs generalizing s with
  | nil => exact ⟨s, rfl, List.forall_mem_nil _, fun _ _ => rfl⟩
  | cons h hs ih =>
    obtain ⟨fresh, names⟩ := List.nodup_cons.1 names
    obtain ⟨s', run, bound, frame⟩ :=
      ih ((handlerName h.function.name, .handler h.function) :: s) names
    refine ⟨s', run, List.forall_mem_cons.2 ⟨?_, bound⟩, fun name other => ?_⟩
    · rw [frame, read_cons, if_pos rfl]
      intro again
      obtain ⟨g, there, same⟩ := List.mem_map.1 again
      exact fresh (List.mem_map.2 ⟨g, there, handlerName_injective same⟩)
    · simp only [List.map_cons, List.mem_cons, not_or] at other
      rw [frame name other.2, read_cons, if_neg other.1]

/-- A scope in which functions can be announced after others: their handlers' names are bound, to
the handlers themselves unless an earlier descriptor has taken the name. -/
def Ready (s : Scope) (done : List Signature) (fs : List Signature) : Prop :=
  ∀ f ∈ fs, ∃ o, s.read (handlerName f.name) = some o ∧
    (o = .handler f ↔ ∀ g ∈ done, descriptorName g.name ≠ handlerName f.name)

/-- One announcement makes the next possible. -/
theorem Ready.announce {s : Scope} {done fs : List Signature} {f : Signature}
    (ready : Ready s done fs) (held : Object) :
    Ready ((descriptorName f.name, .descriptor f held) :: s) (done ++ [f]) fs := by
  intro g member
  rw [read_cons]
  split
  case isTrue taken =>
    refine ⟨_, rfl, ?_⟩
    simp only [reduceCtorEq, false_iff, not_forall]
    exact ⟨f, by simp, fun ne => ne taken.symm⟩
  case isFalse free =>
    obtain ⟨o, bound, own⟩ := ready g member
    refine ⟨o, bound, own.trans ?_⟩
    simp [List.mem_append, or_imp, forall_and, Ne.symm free]

/-- Announcing functions after others makes a descriptor of each. All hold their own handlers just
when none is announced, before or now, under the name of a later one's handler. -/
theorem exists_execute_announcements {s : Scope} {done fs : List Signature}
    (names : (fs.map (·.name)).Nodup) (ready : Ready s done fs) :
    ∃ s' held, execute s (fs.map .announce) = some s' ∧ held.length = fs.length ∧
      fs.mapM (fun f => s'.read (descriptorName f.name)) =
        some (List.zipWith .descriptor fs held) ∧
      (held = fs.map .handler ↔
        (∀ f ∈ fs, ∀ g ∈ done, descriptorName g.name ≠ handlerName f.name) ∧
          fs.Pairwise fun g f => descriptorName g.name ≠ handlerName f.name) ∧
      ∀ name ∉ fs.map (fun f => descriptorName f.name), s'.read name = s.read name := by
  induction fs generalizing s done with
  | nil => exact ⟨s, [], rfl, rfl, rfl, by simp, fun _ _ => rfl⟩
  | cons f fs ih =>
    obtain ⟨fresh, names⟩ := List.nodup_cons.1 names
    obtain ⟨⟨o, bound, own⟩, ready⟩ := List.forall_mem_cons.1 ready
    obtain ⟨s', held, run, length, made, right, frame⟩ := ih names (Ready.announce ready o)
    have here : s'.read (descriptorName f.name) = some (.descriptor f o) := by
      rw [frame, read_cons, if_pos rfl]
      intro again
      obtain ⟨g, there, same⟩ := List.mem_map.1 again
      exact fresh (List.mem_map.2 ⟨g, there, descriptorName_injective same⟩)
    refine ⟨s', o :: held, ?_, by simp [length], ?_, ?_, fun name other => ?_⟩
    · simp [execute, Statement.run, bound, run]
    · simp [List.mapM_cons, here, made]
    · rw [List.map_cons, List.cons.injEq, own, right, List.forall_mem_cons, List.pairwise_cons]
      simp only [List.mem_append, List.mem_singleton, or_imp, forall_and, forall_eq]
      tauto
    · simp only [List.map_cons, List.mem_cons, not_or] at other
      rw [frame name other.2, read_cons, if_neg other.1]

/-- A factory whose functions differ in name runs, and lists a descriptor of each in order. -/
theorem Factory.exists_run {c : Factory} (names : (c.handlers.map fun h => h.function.name).Nodup) :
    ∃ held, c.run = some (List.zipWith .descriptor (c.handlers.map (·.function)) held) ∧
      held.length = c.handlers.length ∧
      (held = c.handlers.map (fun h => .handler h.function) ↔
        c.handlers.Pairwise fun g h =>
          descriptorName g.function.name ≠ handlerName h.function.name) := by
  obtain ⟨s, defined, bound, -⟩ := exists_execute_definitions [] names
  have ready : Ready s [] (c.handlers.map (·.function)) := by
    intro f member
    obtain ⟨h, there, rfl⟩ := List.mem_map.1 member
    exact ⟨_, bound h there, by simp⟩
  obtain ⟨s', held, announced, length, made, right, -⟩ :=
    exists_execute_announcements (by rwa [List.map_map]) ready
  refine ⟨held, ?_, by simpa using length, ?_⟩
  · have statements : execute [] (c.definitions ++ c.announcements) = some s' := by
      rw [execute_append, definitions, defined, announcements]
      simpa [Function.comp_def] using announced
    simp only [run, statements, listed, List.mapM_map] at made ⊢
    simpa [Function.comp_def] using made
  · simpa [List.pairwise_map, Function.comp_def] using right

/-! ## Factories of a module -/

/-- What the body of a factory with these functions binds and lists. -/
structure Factory.Lists (c : Factory) (fs : List Signature) : Prop where
  functions : c.handlers.map (·.function) = fs
  /-- So its text says. -/
  spells : c.Spells
  /-- The local names differ unless a handler is called like a descriptor. -/
  apart : c.localNames.Nodup ↔ ∀ f ∈ fs, ∀ g ∈ fs, handlerName f.name ≠ descriptorName g.name
  /-- There is one descriptor for each function, in order. All hold their own handlers unless one
  is called like the handler of a later function. -/
  run : ∃ held, c.run = some (List.zipWith .descriptor fs held) ∧ held.length = fs.length ∧
    (held = fs.map .handler ↔ fs.Pairwise fun g f => descriptorName g.name ≠ handlerName f.name)
  /-- So they do where the local names differ. -/
  own : c.localNames.Nodup → c.run = some (fs.map fun f => .descriptor f (.handler f))

/-- The node is given its functions in order, whatever order names are bound in. -/
theorem Factory.lists_of_names {c : Factory} {fs : List Signature}
    (functions : c.handlers.map (·.function) = fs)
    (valid : ∀ f ∈ fs, Identifier.isIdentifier f.name) (names : (fs.map (·.name)).Nodup) :
    c.Lists fs := by
  subst functions
  have spells : c.Spells := spells_of_identifiers fun h member =>
    valid h.function (List.mem_map_of_mem member)
  have apart : c.localNames.Nodup ↔ ∀ f ∈ c.handlers.map (·.function),
      ∀ g ∈ c.handlers.map (·.function), handlerName f.name ≠ descriptorName g.name := by
    rw [localNames_eq, nodup_globalNames_iff]
    exact ⟨fun h => h.kinds, fun kinds => ⟨names, kinds⟩⟩
  obtain ⟨held, run, length, right⟩ := exists_run (by simpa [Function.comp_def] using names)
  refine ⟨rfl, spells, apart, ⟨held, run, by simpa using length, ?_⟩, fun nodup => ?_⟩
  · simpa [List.pairwise_map, Function.comp_def] using right
  · have kinds := apart.1 nodup
    have own : held = c.handlers.map fun h => .handler h.function := by
      refine right.2 (List.pairwise_of_forall_mem_list fun g left h right => ?_)
      exact (kinds _ (List.mem_map_of_mem right) _ (List.mem_map_of_mem left)).symm
    rw [run, own]
    simp [List.zipWith_map_left, List.zipWith_map_right, List.zipWith_self]

/-- A module has a factory for each node, with the handlers of its functions in order. -/
theorem functions_of_moduleOf [CharNames] {settings : Settings} {f : Flow} {m : Module}
    (made : moduleOf settings f = .ok m) :
    List.Forall₂ (fun c n => c.node = n ∧
      c.handlers.map (·.function) = n.data.functionList.map (·.toSignature))
      m.factories f.nodes :=
  (factories_of_moduleOf made).1.imp fun _ _ h =>
    ⟨h.1, map_of_forall₂ h.2 fun _ _ => function_of_handlerOf⟩

/-- The factory of each node lists one descriptor for each of its functions, in order, and each has
its own handler if the local names differ. -/
theorem lists_of_exportable [CharNames] (settings : Settings) {d : Document} {f : Flow}
    {m : Module} (exported : Check.exportable d = .ok f) (made : moduleOf settings f = .ok m) :
    List.Forall₂ (fun c n => c.node = n ∧ c.Lists (n.data.functionList.map (·.toSignature)))
      m.factories f.nodes := by
  obtain ⟨checked, whole⟩ := Check.exportable_eq_ok.1 exported
  refine (forall₂_mem_right (functions_of_moduleOf made)).imp ?_
  rintro c n ⟨owner, node, functions⟩
  refine ⟨node, Factory.lists_of_names functions (fun g called => ?_) ?_⟩
  · exact isIdentifier_of_functionsOf checked g
      (List.mem_append_left _ (List.mem_flatMap.2 ⟨n, owner, called⟩))
  · simpa [Function.comp_def] using whole.names n owner

/-- A node with two functions. -/
def greeting (first second : String) : Flow where
  info := { name := "Sample", version := "1.0.0" }
  nodes := [
    { id := "greet"
      role := .plain
      position := ⟨0.0, 0.0⟩
      data := { functions := some [
        { name := first, description := "" },
        { name := second, description := "" }] } }]
  edges := []

theorem lists_of_exportable_greeting : ∃ m, moduleOf {} (greeting "ask" "stop") = .ok m ∧
    List.Forall₂ (fun c n => c.node = n ∧ c.Lists (n.data.functionList.map (·.toSignature)))
      m.factories (greeting "ask" "stop").nodes := by
  have exported : Check.exportable (greeting "ask" "stop").document =
      .ok (greeting "ask" "stop") := rfl
  exact ⟨_, rfl, lists_of_exportable {} exported rfl⟩

/-- The flow may be exported. In the factory of its node the handler of the second function has the
name of the descriptor of the first, which the descriptor of the second then holds instead. -/
theorem greeting_handle_func :
    Check.exportable (greeting "handle" "func").document = .ok (greeting "handle" "func") ∧
    ∃ m, moduleOf {} (greeting "handle" "func") = .ok m ∧ ∃ c ∈ m.factories,
      ¬c.localNames.Nodup ∧ c.run = some [
        .descriptor { name := "handle", description := "" }
          (.handler { name := "handle", description := "" }),
        .descriptor { name := "func", description := "" }
          (.descriptor { name := "handle", description := "" }
            (.handler { name := "handle", description := "" }))] := by
  refine ⟨rfl, _, rfl, _, .head _, ?_, rfl⟩
  decide

end Dialogue.Script
