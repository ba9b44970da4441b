import Dialogue.Proofs.Document.Outcome
import Dialogue.Script.Module

/-!
# What a module is made of

Each function becomes a handler and each node a factory, one after the other. Two things can keep a
flow from becoming a module: a condition that compares with a value which cannot be written, and a
description with a number that is too long.
-/

namespace Dialogue.Script

open Literal (CharNames)

/-! ## Numbers -/

/-- All numbers in the descriptions of a function's arguments can be written. -/
def IsShort (f : Signature) : Prop := ∀ p ∈ propertyList f, ∀ q ∈ numbers p.2, isShort q

/-- Numbers pass if all have few enough digits. -/
theorem checkNumbers_eq_ok {f : Signature} {u : Unit} : checkNumbers f = .ok u ↔ IsShort f := by
  simp [checkNumbers, IsShort]

theorem checkNumbers_eq_error {f : Signature} {m : Malformed} :
    checkNumbers f = .error m ↔ m = .badValue ∧ ¬IsShort f := by
  have short : checkNumbers f = .ok () ↔ IsShort f := checkNumbers_eq_ok
  rw [← short, checkNumbers]
  split <;> simp [eq_comm]

theorem mem_functionsOf {f : Flow} {n : FlowNode} {g : NodeFunction} (owner : n ∈ f.nodes)
    (called : g ∈ n.data.functionList) : g.toSignature ∈ functionsOf f :=
  List.mem_append_left _ (List.mem_flatMap.2 ⟨n, owner, List.mem_map_of_mem called⟩)

variable [CharNames]

/-! ## Values of conditions -/

/-- Writing a test fails only on a sum that is too large. -/
theorem conditionValue_eq_error {s : String} {m : Malformed} : conditionValue s = .error m ↔
    m = .tooLarge ∧ Literal.read (Text.strip s.toList) = .error .tooLarge := by
  unfold conditionValue literal?
  cases Literal.read (Text.strip s.toList) with
  | ok l => split <;> simp_all
  | error fault => cases fault <;> simp [eq_comm]

/-- The value of a condition can be written unless it adds a number out of range to an imaginary
one. -/
theorem exists_conditionValue {s : String} :
    (∃ v, conditionValue s = .ok v) ↔ Literal.read (Text.strip s.toList) ≠ .error .tooLarge := by
  have fails : (∃ m, conditionValue s = .error m) ↔
      Literal.read (Text.strip s.toList) = .error .tooLarge := by simp [conditionValue_eq_error]
  rw [Ne, ← fails]
  cases conditionValue s <;> simp

/-! ## Handlers -/

/-- All that a handler is made of. -/
theorem handlerOf_eq_ok {types : Registry} {g : NodeFunction} {h : Handler} :
    handlerOf types g = .ok h ↔ ∃ route, routeOf g = .ok route ∧ IsShort g.toSignature ∧
      ⟨g.toSignature, types.nameOf? g.toSignature, localNames (handlerNames ++
        (types.nameOf? g.toSignature).toList ++ route.targets.map factoryName)
          (propertyNames g.toSignature), route⟩ = h := by
  simp only [handlerOf, bind_eq_ok, checkNumbers_eq_ok, Except.ok.injEq, exists_and_left,
    exists_const]

theorem function_of_handlerOf {types : Registry} {g : NodeFunction} {h : Handler}
    (made : handlerOf types g = .ok h) : h.function = g.toSignature := by
  obtain ⟨route, -, -, rfl⟩ := handlerOf_eq_ok.1 made
  rfl

theorem exists_of_routeOf_error {g : NodeFunction} {m : Malformed} (h : routeOf g = .error m) :
    ∃ d, g.decision = some d ∧ ∃ c ∈ d.conditions, conditionValue c.value = .error m := by
  unfold routeOf at h
  split at h
  case h_1 d decided =>
    rcases bind_eq_error.1 h with fails | ⟨branches, -, rest⟩
    · obtain ⟨c, member, unread⟩ := exists_of_mapM_error fails
      rcases bind_eq_error.1 unread with value | ⟨value, -, last⟩
      · exact ⟨d, decided, c, member, value⟩
      · cases last
    · cases rest
  case h_2 => split at h <;> cases h

/-- A handler fails by its route or by a number. -/
theorem handlerOf_error {types : Registry} {g : NodeFunction} {m : Malformed}
    (fails : handlerOf types g = .error m) :
    routeOf g = .error m ∨ checkNumbers g.toSignature = .error m := by
  rcases bind_eq_error.1 fails with unrouted | ⟨route, -, rest⟩
  · exact .inl unrouted
  · rcases bind_eq_error.1 rest with long | ⟨-, -, last⟩
    · exact .inr long
    · cases last

/-! ## Modules -/

section

variable {settings : Settings} {f : Flow} {m : Module}

/-- All that a module is made of. -/
theorem moduleOf_eq_ok : moduleOf settings f = .ok m ↔
    ∃ factories, f.nodes.mapM (factoryOf (typesOf f)) = .ok factories ∧
      (∀ g ∈ globalFunctions f, IsShort g) ∧ {
        title := docText f.info.name
        host := settings.hostModule
        imports := importsOf f
        types := typesOf f
        hasRouter := hasDecisions f
        stubs := freeStubs (definedNames f) (calledStubs f.nodes)
        globals := (globalFunctions f).map (globalHandlerOf (typesOf f))
        factories
        initial := initialNode f.nodes } = m := by
  simp only [moduleOf, bind_eq_ok, forM_eq_ok, checkNumbers_eq_ok, Except.ok.injEq,
    exists_and_left, exists_const]

/-- A module has a factory for each node, with a handler for each of its functions. -/
theorem factories_of_moduleOf (made : moduleOf settings f = .ok m) :
    List.Forall₂ (fun c n => c.node = n ∧ List.Forall₂ (fun h g => handlerOf (typesOf f) g = .ok h)
      c.handlers n.data.functionList) m.factories f.nodes ∧ m.initial = initialNode f.nodes := by
  obtain ⟨factories, run, -, rfl⟩ := moduleOf_eq_ok.1 made
  refine ⟨(mapM_eq_ok.1 run).flip.imp fun c n made => ?_, rfl⟩
  obtain ⟨handlers, each, rest⟩ := bind_eq_ok.1 made
  obtain rfl := Except.ok.inj rest
  exact ⟨rfl, (mapM_eq_ok.1 each).flip⟩

/-- What keeps a flow from becoming a module, with the fault that it makes. -/
inductive Obstacle (f : Flow) : Malformed → Prop where
  /-- A condition adds a number out of range to an imaginary one. -/
  | value {n : FlowNode} {g : NodeFunction} {d : Decision} {c : Condition} (owner : n ∈ f.nodes)
      (called : g ∈ n.data.functionList) (decided : g.decision = some d) (tested : c ∈ d.conditions)
      (huge : Literal.read (Text.strip c.value.toList) = .error .tooLarge) : Obstacle f .tooLarge
  /-- A number is too long. -/
  | number {g : Signature} (described : g ∈ functionsOf f) (long : ¬IsShort g) :
      Obstacle f .badValue

/-- Whatever stops a module is an obstacle of the flow. -/
theorem obstacle_of_moduleOf {e : Malformed} (h : moduleOf settings f = .error e) :
    Obstacle f e := by
  rcases bind_eq_error.1 h with fails | ⟨factories, -, rest⟩
  · obtain ⟨n, owner, unmade⟩ := exists_of_mapM_error fails
    rcases bind_eq_error.1 unmade with fails | ⟨handlers, -, last⟩
    · obtain ⟨g, called, unmade⟩ := exists_of_mapM_error fails
      rcases handlerOf_error unmade with unrouted | fails
      · obtain ⟨d, decided, c, tested, fails⟩ := exists_of_routeOf_error unrouted
        obtain ⟨rfl, huge⟩ := conditionValue_eq_error.1 fails
        exact .value owner called decided tested huge
      · obtain ⟨rfl, long⟩ := checkNumbers_eq_error.1 fails
        exact .number (mem_functionsOf owner called) long
    · cases last
  · rcases bind_eq_error.1 rest with fails | ⟨-, -, last⟩
    · obtain ⟨g, member, fails⟩ := exists_of_forM_error fails
      obtain ⟨rfl, long⟩ := checkNumbers_eq_error.1 fails
      exact .number (List.mem_append_right _ member) long
    · cases last

end

end Dialogue.Script
