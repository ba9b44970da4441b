import Dialogue.Proofs.Flow.Reread
import Dialogue.Proofs.Script.Routing

/-!
# One module for all forms of a flow

A flow may be given as some document that it is read from, as the document that it is written as, or
normalized. Normalizing a document again changes nothing, and what is generated is the same for all
of them: neither stored roles nor stored edges get into the module. There is a module unless a
condition compares with a sum that is out of range or a property has a number that is too long.
-/

namespace Dialogue

open Literal (CharNames)
open Script (generate)

/-! ## Flows that can be generated -/

/-- No condition of the flow compares with a value that cannot be written, and no description of an
argument has a number that is too long. -/
structure Flow.Expressible [CharNames] (f : Flow) : Prop where
  values : ∀ n ∈ f.nodes, ∀ g ∈ n.data.functionList, ∀ d, g.decision = some d → ∀ c ∈ d.conditions,
    Literal.read (Text.strip c.value.toList) ≠ .error .tooLarge
  numbers : ∀ g ∈ Script.functionsOf f, Script.IsShort g

namespace Script

section

variable [CharNames]

/-- A handler with a route has all its tests written. -/
theorem exists_conditionValue_of_routeOf {g : NodeFunction} {r : Route} (routed : routeOf g = .ok r)
    {d : Decision} (decided : g.decision = some d) {c : Condition} (tested : c ∈ d.conditions) :
    ∃ v, conditionValue c.value = .ok v := by
  rw [routeOf, decided] at routed
  obtain ⟨branches, run, -⟩ := bind_eq_ok.1 routed
  obtain ⟨b, -, made⟩ := exists_of_mem_left (mapM_eq_ok.1 run) tested
  obtain ⟨v, written, -⟩ := bind_eq_ok.1 made
  exact ⟨v, written⟩

/-- A flow with a module can be expressed. -/
theorem expressible_of_moduleOf {settings : Settings} {f : Flow} {m : Module}
    (made : moduleOf settings f = .ok m) : f.Expressible := by
  have handlers {n : FlowNode} (owner : n ∈ f.nodes) {g : NodeFunction}
      (called : g ∈ n.data.functionList) : ∃ h, handlerOf (typesOf f) g = .ok h := by
    obtain ⟨_, -, -, each⟩ := exists_of_mem_right (factories_of_moduleOf made).1 owner
    obtain ⟨h, -, handled⟩ := exists_of_mem_right each called
    exact ⟨h, handled⟩
  constructor
  · intro n owner g called d decided c tested
    obtain ⟨h, handled⟩ := handlers owner called
    obtain ⟨r, routed, -⟩ := handlerOf_eq_ok.1 handled
    exact exists_conditionValue.1 (exists_conditionValue_of_routeOf routed decided tested)
  · intro g described
    rcases List.mem_append.1 described with own | shared
    · obtain ⟨n, owner, member⟩ := List.mem_flatMap.1 own
      obtain ⟨g, called, rfl⟩ := List.mem_map.1 member
      obtain ⟨h, handled⟩ := handlers owner called
      obtain ⟨-, -, short, -⟩ := handlerOf_eq_ok.1 handled
      exact short
    · obtain ⟨-, -, short, -⟩ := moduleOf_eq_ok.1 made
      exact short g shared

/-- A flow can be expressed if nothing stands in the way. -/
theorem expressible_iff {f : Flow} : f.Expressible ↔ ∀ e, ¬Obstacle f e := by
  constructor
  · rintro ⟨values, short⟩ e (⟨owner, called, decided, tested, huge⟩ | ⟨described, long⟩)
    · exact values _ owner _ called _ decided _ tested huge
    · exact long (short _ described)
  · refine fun free => ⟨fun n owner g called d decided c tested huge => ?_, fun g described => ?_⟩
    · exact free _ (.value owner called decided tested huge)
    · exact by_contra fun long => free _ (.number described long)

theorem exists_moduleOf (settings : Settings) (f : Flow) :
    (∃ m, moduleOf settings f = .ok m) ↔ f.Expressible := by
  refine ⟨fun ⟨m, made⟩ => expressible_of_moduleOf made, fun expressible => ?_⟩
  cases made : moduleOf settings f with
  | ok m => exact ⟨m, rfl⟩
  | error e => exact absurd (obstacle_of_moduleOf made) (expressible_iff.1 expressible e)

end

/-! ## Roles and edges -/

section

variable (f : Flow)

theorem functionsOf_normalize : functionsOf f.normalize = functionsOf f := by
  simp [functionsOf, Flow.normalize, List.flatMap_map, FlowNode.withRole, globalFunctions]

theorem typesOf_normalize : typesOf f.normalize = typesOf f := by
  rw [typesOf, typesOf, functionsOf_normalize]

theorem hasDecisions_normalize : hasDecisions f.normalize = hasDecisions f := by
  simp [hasDecisions, Flow.normalize, FlowNode.withRole, Function.comp_def]

theorem importsOf_normalize : importsOf f.normalize = importsOf f := by
  have strategies : hasStrategies f.normalize = hasStrategies f := by
    simp [hasStrategies, Flow.normalize, FlowNode.withRole, Function.comp_def, ownStrategy?]
  rw [importsOf, importsOf, strategies]

theorem globalFunctions_normalize : globalFunctions f.normalize = globalFunctions f := rfl

theorem definedNames_normalize : definedNames f.normalize = definedNames f := by
  have factories : f.normalize.nodes.map (fun n => factoryName n.id) =
      f.nodes.map fun n => factoryName n.id := by
    simp [Flow.normalize, FlowNode.withRole]
  rw [definedNames, definedNames, importsOf_normalize, typesOf_normalize, factories,
    globalFunctions_normalize]

theorem calledStubs_normalize : calledStubs f.normalize.nodes = calledStubs f.nodes := by
  simp [calledStubs, Flow.normalize, List.flatMap_map, FlowNode.withRole, nodeActions]

/-- The node to start at is found by what its data show, not by a stored role. -/
theorem initialNode_normalize : initialNode f.normalize.nodes = initialNode f.nodes := by
  have found : f.normalize.nodes.find? (fun n => n.data.role = .initial) =
      (f.nodes.find? fun n => n.data.role = .initial).map FlowNode.withRole :=
    List.find?_map ..
  have first : f.normalize.nodes.head? = f.nodes.head?.map FlowNode.withRole := by
    simp [Flow.normalize]
  rw [initialNode, initialNode, found, first]
  cases f.nodes.find? fun n => n.data.role = .initial with
  | some n => rfl
  | none => cases f.nodes.head? <;> rfl

end

def Factory.withRole (c : Factory) : Factory := { c with node := c.node.withRole }

def Module.withRoles (m : Module) : Module :=
  { m with factories := m.factories.map Factory.withRole }

/-- The role of a node is not printed. -/
theorem Module.text_withRoles (m : Module) : m.withRoles.text = m.text := by
  have factories : m.withRoles.factories.map (fun c => spaced c.text) =
      m.factories.map fun c => spaced c.text := by
    simp only [Module.withRoles, List.map_map]
    rfl
  rw [Module.text, factories]
  rfl

section

variable [CharNames]

theorem factoryOf_withRole (types : Registry) (n : FlowNode) :
    factoryOf types n.withRole = Factory.withRole <$> factoryOf types n := by
  have same : n.withRole.data = n.data := rfl
  unfold factoryOf
  rw [same]
  cases n.data.functionList.mapM (handlerOf types) <;> rfl

/-- Normalizing changes the roles in the module only. -/
theorem moduleOf_normalize (settings : Settings) (f : Flow) :
    moduleOf settings f.normalize = Module.withRoles <$> moduleOf settings f := by
  have factories (types : Registry) : f.normalize.nodes.mapM (factoryOf types) =
      List.map Factory.withRole <$> f.nodes.mapM (factoryOf types) :=
    mapM_map_functor (factoryOf_withRole types) f.nodes
  simp only [moduleOf, factories, typesOf_normalize, importsOf_normalize, hasDecisions_normalize,
    definedNames_normalize, calledStubs_normalize, initialNode_normalize, globalFunctions_normalize]
  cases f.nodes.mapM (factoryOf (typesOf f)) with
  | error e => rfl
  | ok cs => cases (globalFunctions f).forM checkNumbers <;> rfl

/-- Neither roles nor edges that are stored change what is generated. -/
theorem generate_normalize (settings : Settings) (f : Flow) :
    generate settings f.normalize = generate settings f := by
  unfold generate
  rw [moduleOf_normalize]
  cases moduleOf settings f with
  | error e => rfl
  | ok m => exact congrArg Except.ok m.text_withRoles

end

/-! ## Documents of a flow -/

/-- The normalized form of a document. -/
def normalized (d : Document) : Outcome Document :=
  return (← Flow.ofDocument .use d).normalize.document

/-- The editor's form of a valid document is its flow normalized. -/
theorem normalized_of_check {d : Document} {f : Flow} (h : Flow.check d = .ok f) :
    normalized d = .ok f.normalize.document := by
  rw [normalized, Flow.ofDocument_eq_ok.2 h]
  rfl

section

variable [CharNames]

/-- The module that is generated from a document. -/
def generated (settings : Settings) (d : Document) : Outcome String := do
  Script.generate settings (← Flow.ofDocument .generation d)

/-- The text from a document is that from its flow. -/
theorem generated_of_check (settings : Settings) {d : Document} {f : Flow}
    (h : Flow.check d = .ok f) : generated settings d = (generate settings f).lift := by
  rw [generated, Flow.ofDocument_eq_ok.2 h]
  rfl

theorem exists_generated (settings : Settings) {d : Document} {f : Flow}
    (h : Flow.check d = .ok f) : (∃ text, generated settings d = .ok text) ↔ f.Expressible := by
  rw [generated_of_check settings h, ← exists_moduleOf settings f, generate]
  cases moduleOf settings f <;> simp

/-- What the forms of a flow have in common: the document `d` that it is read from, the document
that it is written as, and its normalized document. -/
structure FormsAgree (d : Document) (f : Flow) : Prop where
  normalizes : normalized d = .ok f.normalize.document
  accepted : Flow.check f.normalize.document = .ok f.normalize
  /-- Normalizing again changes nothing. -/
  fixed : normalized f.normalize.document = .ok f.normalize.document
  written (settings : Settings) : generated settings f.document = generated settings d
  normal (settings : Settings) : generated settings f.normalize.document = generated settings d
  /-- Nothing but a value or a number that cannot be written stands in the way of a module. -/
  generates (settings : Settings) : (∃ text, generated settings d = .ok text) ↔ f.Expressible
  fails (settings : Settings) (e : Failure) (failed : generated settings d = .error e) :
    ∃ m, e = .malformed m ∧ Obstacle f m

end

/-- A whole number out of the range of floats, plus an imaginary one. -/
def hugeSum : List Char := '0' :: 'x' :: '1' :: (List.replicate 256 '0' ++ ['+', '1', 'j'])

theorem read_hugeSum : Literal.read (Text.strip hugeSum) = .error .tooLarge := by
  have overflows : (match Literal.read (Text.strip hugeSum) with
      | .error .tooLarge => true
      | _ => false) = true := by decide +kernel
  generalize Literal.read (Text.strip hugeSum) = outcome at overflows ⊢
  match outcome, overflows with
  | .error .tooLarge, _ => rfl

/-- A flow that compares with that sum. -/
def hugeFlow : Flow where
  info := { name := "Sample", version := "1.0.0" }
  nodes := [
    { id := "greet"
      role := .plain
      position := ⟨0.0, 0.0⟩
      data := {
        functions := some [
          { name := "choose"
            description := ""
            decision := some {
              action := "result = 1"
              conditions := [⟨.equal, String.ofList hugeSum, "greet"⟩]
              fallback := "greet" } }] } }]
  edges := []

end Script
end Dialogue
