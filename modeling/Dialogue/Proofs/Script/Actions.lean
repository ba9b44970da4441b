import Dialogue.Proofs.Script.Scope

/-!
# Handlers of actions

An action refers to its handler by name, from inside the factory of its node. The name is one that
the module defines, or a stub is given for it, once. It is looked for in the factory first, where a
function's handler or descriptor may have it. The names of the router count as taken even in a
module without a router.
-/

namespace Dialogue.Script

open Literal (CharNames)

/-! ## Plain references -/

theorem escapeChar_ne_nil (c : Char) : escapeChar c ≠ [] := by
  unfold escapeChar
  split
  case h_6 => split <;> simp [controlChars]
  all_goals exact List.cons_ne_nil _ _

/-- A quoted text is longer than the text, so no word is its own quotation. -/
theorem length_lt_string (s : String) : s.toList.length < (string s).toList.length := by
  have all (cs : List Char) : cs.length ≤ (escapeChars cs).length := by
    induction cs with
    | nil => simp
    | cons c cs ih =>
      have here := List.length_pos_iff.2 (escapeChar_ne_nil c)
      simp only [escapeChars, List.flatMap_cons, List.length_append, List.length_cons] at ih ⊢
      omega
  have inside := all s.toList
  simp only [string, stringChars, String.toList_ofList, List.length_append, List.length_cons,
    List.length_nil]
  omega

/-- A reference without dots that stands there as it is spelled is a usable name. -/
theorem isUsableName_of_reference {h : String} (plain : handlerReference h = h)
    (dotless : '.' ∉ h.toList) : isUsableName h.toList := by
  unfold handlerReference at plain
  split at plain
  case isTrue usable =>
    rw [List.splitOn_eq_singleton dotless] at usable
    simpa using usable
  case isFalse =>
    have longer := length_lt_string h
    rw [plain] at longer
    omega

/-! ## Stubs -/

/-- Every usable handler that an action calls is asked for. -/
theorem mem_calledStubs {nodes : List FlowNode} {n : FlowNode} {a : Action} {h : String}
    (owner : n ∈ nodes) (action : a ∈ nodeActions n) (handler : actionHandler? a = some h)
    (usable : isUsableName h.toList) : ⟨h, n.id⟩ ∈ calledStubs nodes := by
  refine List.mem_flatMap.2 ⟨n, owner, List.mem_filterMap.2 ⟨a, action, ?_⟩⟩
  simp [handler, usable]

/-- A name that is called is taken, or it gets a stub. -/
theorem freeStubs_covers (taken : List String) (ss : List Stub) :
    ∀ s ∈ ss, s.name ∈ taken ∨ s.name ∈ (freeStubs taken ss).map (·.name) := by
  induction ss generalizing taken with
  | nil => exact List.forall_mem_nil _
  | cons s ss ih =>
    simp only [freeStubs, List.contains_iff_mem]
    split
    case isTrue there => exact List.forall_mem_cons.2 ⟨.inl there, ih taken⟩
    case isFalse =>
      refine List.forall_mem_cons.2 ⟨.inr (by simp), fun t member => ?_⟩
      rcases ih (s.name :: taken) t member with there | stub
      · rcases List.mem_cons.1 there with same | there
        · exact .inr (by simp [same])
        · exact .inl there
      · exact .inr (List.mem_cons_of_mem _ stub)

section

variable {settings : Settings} {f : Flow} {m : Module}

/-- One name asked for gets one stub, if the module has no such name of its own. -/
theorem count_stubs [CharNames] (made : moduleOf settings f = .ok m) {s : Stub}
    (called : s ∈ calledStubs f.nodes) :
    (m.stubs.map (·.name)).count s.name = if s.name ∈ definedNames f then 0 else 1 := by
  obtain ⟨nodup, free⟩ := freeStubs_spec (definedNames f) (calledStubs f.nodes)
  rw [stubs_of_moduleOf made]
  split
  case isTrue defined =>
    refine List.count_eq_zero.2 fun stub => ?_
    obtain ⟨t, member, same⟩ := List.mem_map.1 stub
    exact free t member (same ▸ defined)
  case isFalse undefined =>
    exact List.count_eq_one_of_mem nodup
      ((freeStubs_covers (definedNames f) _ s called).resolve_left undefined)

/-! ## Names of the module -/

/-- The names of the router count as taken even without a router. -/
theorem mem_definedNames_iff [CharNames] (made : moduleOf settings f = .ok m) {name : String} :
    name ∈ definedNames f ↔ name ∈ m.ownNames ∨ name ∈ routerNames := by
  refine ⟨fun defined => ?_, fun h => h.elim (fun own => ownNames_subset made own) fun router => ?_⟩
  · rw [ownNames_of_moduleOf made, globalNames, Flow.ids, List.map_map]
    simp only [definedNames, List.mem_append] at defined ⊢
    rcases defined with ((((imported | type) | router) | handler) | descriptor) | factory
    · exact .inl (.inl (.inl (.inl (.inr imported))))
    · exact .inl (.inl (.inl (.inr type)))
    · exact .inr router
    · exact .inl (.inl (.inr (.inl handler)))
    · exact .inl (.inl (.inr (.inr descriptor)))
    · exact .inl (.inr factory)
  · simp only [definedNames, List.mem_append]
    exact .inl (.inl (.inl (.inr router)))

theorem importsOf_subset (f : Flow) : importsOf f ⊆ hostImports ++ contextImports := by
  unfold importsOf
  split
  · exact List.Subset.refl _
  · exact List.append_subset.2 ⟨List.subset_append_left .., List.nil_subset _⟩

/-- The names of the router are bound by the router alone. -/
theorem routerName_mem_ownNames_iff [CharNames] {d : Document} (checked : Flow.check d = .ok f)
    (made : moduleOf settings f = .ok m) {name : String} (router : name ∈ routerNames) :
    name ∈ m.ownNames ↔ m.hasRouter := by
  have fixed : name ∈ fixedNames := List.mem_append_left _ (List.mem_append_left _ router)
  have other : ∀ name ∈ routerNames, name ∉ hostImports ++ contextImports := by decide
  have hasRouter : m.hasRouter = hasDecisions f := by
    obtain ⟨_, -, -, rfl⟩ := moduleOf_eq_ok.1 made
    rfl
  rw [ownNames_of_moduleOf made, hasRouter]
  constructor
  · intro own
    rcases List.mem_append.1 own with own | factory
    · rcases List.mem_append.1 own with own | shared
      · rcases List.mem_append.1 own with own | type
        · rcases List.mem_append.1 own with own | imported
          · split at own
            · assumption
            · cases own
          · exact absurd (importsOf_subset f imported) (other name router)
        · exact absurd fixed (typeName_not_mem_fixed checked name type)
      · obtain ⟨g, -, rfl | rfl⟩ := exists_of_mem_globalNames shared
        · exact absurd fixed (handlerName_not_mem_fixed g.name)
        · exact absurd fixed (descriptorName_not_mem_fixed g.name)
    · obtain ⟨id, -, rfl⟩ := List.mem_map.1 factory
      exact absurd fixed (factoryName_not_mem_fixed id)
  · intro decides
    simp [decides, router]

/-- Names are bound as the language of the module folds them. A name that is called is bound unless
it is one of the router's in a module without a router. -/
theorem mem_boundNames_iff [CharNames] {d : Document} (checked : Flow.check d = .ok f)
    (made : moduleOf settings f = .ok m) {fold : String → String}
    (plain : ∀ s, Ascii s → fold s = s) {s : Stub} (called : s ∈ calledStubs f.nodes) :
    fold s.name ∈ m.boundNames.map fold ↔
      (s.name ∈ routerNames → m.hasRouter ∨ ∃ t ∈ m.stubs, fold t.name = s.name) := by
  have unfolded (router : s.name ∈ routerNames) : fold s.name = s.name := by
    have ascii : ∀ name ∈ routerNames, Ascii name := by decide
    exact plain s.name (ascii s.name router)
  constructor
  · intro bound router
    rw [unfolded router] at bound
    obtain ⟨name, bound, same⟩ := List.mem_map.1 bound
    rcases List.mem_append.1 bound with own | stub
    · rw [plain _ (ascii_of_mem_ownNames checked made name own)] at same
      exact .inl ((routerName_mem_ownNames_iff checked made router).1 (same ▸ own))
    · obtain ⟨t, member, rfl⟩ := List.mem_map.1 stub
      exact .inr ⟨t, member, same⟩
  · intro router
    have own (h : s.name ∈ m.ownNames) : fold s.name ∈ m.boundNames.map fold :=
      List.mem_map_of_mem (List.mem_append_left _ h)
    have stub {t : Stub} (h : t ∈ m.stubs) : fold t.name ∈ m.boundNames.map fold :=
      List.mem_map_of_mem (List.mem_append_right _ (List.mem_map_of_mem h))
    by_cases defined : s.name ∈ definedNames f
    · rcases (mem_definedNames_iff made).1 defined with there | there
      · exact own there
      · rcases router there with routed | ⟨t, member, same⟩
        · exact own ((routerName_mem_ownNames_iff checked made there).2 routed)
        · rw [unfolded there, ← same]
          exact stub member
    · have covered := freeStubs_covers (definedNames f) _ s called
      rw [← stubs_of_moduleOf made] at covered
      obtain ⟨t, member, same⟩ := List.mem_map.1 (covered.resolve_left defined)
      rw [← same]
      exact stub member

end

/-! ## Names of a factory -/

theorem mem_globalNames_iff {fs : List Signature} {name : String} : name ∈ globalNames fs ↔
    ∃ f ∈ fs, name = handlerName f.name ∨ name = descriptorName f.name := by
  refine ⟨exists_of_mem_globalNames, ?_⟩
  rintro ⟨f, there, rfl | rfl⟩
  · exact List.mem_append_left _ (List.mem_map_of_mem there)
  · exact List.mem_append_right _ (List.mem_map_of_mem there)

theorem mem_localNames_iff {c : Factory} {fs : List Signature}
    (functions : c.handlers.map (·.function) = fs) (ascii : ∀ f ∈ fs, Ascii f.name)
    {fold : String → String} (plain : ∀ s, Ascii s → fold s = s) {name : String} :
    name ∈ c.localNames.map fold ↔
      ∃ f ∈ fs, name = handlerName f.name ∨ name = descriptorName f.name := by
  have unfolded : c.localNames.map fold = c.localNames := by
    refine (List.map_congr_left fun name there => plain name ?_).trans (List.map_id' _)
    rw [Factory.localNames_eq, functions] at there
    obtain ⟨f, called, rfl | rfl⟩ := exists_of_mem_globalNames there
    · exact .append (by decide) (ascii f called)
    · exact .append (ascii f called) (by decide)
  rw [unfolded, Factory.localNames_eq, functions, mem_globalNames_iff]

/-! ## The handler of an action -/

/-- What a factory's reference to `handler` finds, where names are folded. -/
structure Resolves (fold : String → String) (f : Flow) (m : Module) (c : Factory)
    (handler : String) : Prop where
  /-- The text of the factory refers to it without quotes. -/
  written : indent 3 ++ braced [field "type" (string functionAction), field "handler" handler] ++
    "," ∈ c.pieces
  /-- The names counted are those that the texts of the module and of the factory bind. -/
  binds : m.Binds ∧ c.Spells
  /-- The module binds it unless it is a name of the router and there is no router. -/
  bound : fold handler ∈ m.boundNames.map fold ↔
    (handler ∈ routerNames → m.hasRouter ∨ ∃ s ∈ m.stubs, fold s.name = handler)
  /-- The factory binds it too if a function's handler or descriptor is called so. -/
  shadowed : fold handler ∈ c.localNames.map fold ↔ ∃ g ∈ c.node.data.functionList,
    fold handler = handlerName g.name ∨ fold handler = descriptorName g.name
  /-- There is a stub for it just when nothing else defines it, and never a second. -/
  stubs : (m.stubs.map (·.name)).count handler = if handler ∈ definedNames f then 0 else 1
  /-- Two stubs meet in it only if they are spelled differently. -/
  folded : ((m.stubs.map (·.name)).map fold).count (fold handler) ≤ 1 ↔
    ∀ a ∈ m.stubs.map (·.name), ∀ b ∈ m.stubs.map (·.name),
      fold a = fold handler → fold b = fold handler → a = b

/-- What a handled action is written as. -/
theorem actionText_eq {a : Action} {handler : String} (handled : actionHandler? a = some handler)
    (unquoted : handlerReference handler = handler) : actionText a =
      braced [field "type" (string functionAction), field "handler" handler] := by
  have type : a.type = functionAction := by
    by_contra other
    simp [actionHandler?, other] at handled
  simp only [actionText, handled, unquoted, type]

/-- The action stands on a line of its factory. -/
theorem mem_pieces_of_action {c : Factory} {a : Action} (action : a ∈ nodeActions c.node) :
    indent 3 ++ actionText a ++ "," ∈ c.pieces := by
  have argument {as : Option (List Action)} (name : String) (there : a ∈ as.getD []) :
      indent 3 ++ actionText a ++ "," ∈ actionArgument name as := by
    have line := List.mem_map_of_mem (f := fun a => indent 3 ++ actionText a ++ ",") there
    have some := List.isEmpty_eq_false_iff.2 (List.ne_nil_of_mem line)
    simp only [actionArgument, listArgument, some]
    exact List.mem_append_left _ (List.mem_append_right _ line)
  rcases List.mem_append.1 action with before | after
  · simp [Factory.pieces, argument "pre_actions" before]
  · simp [Factory.pieces, argument "post_actions" after]

theorem count_map_le_one_iff {α β : Type} [DecidableEq β] {xs : List α} (nodup : xs.Nodup)
    (f : α → β) (y : β) : (xs.map f).count y ≤ 1 ↔
      ∀ a ∈ xs, ∀ b ∈ xs, f a = y → f b = y → a = b := by
  induction xs with
  | nil => simp
  | cons x xs ih =>
    obtain ⟨fresh, nodup⟩ := List.nodup_cons.1 nodup
    by_cases here : f x = y
    · have count : ((x :: xs).map f).count y ≤ 1 ↔ ∀ b ∈ xs, f b ≠ y := by
        simp [here, List.count_eq_zero]
      rw [count]
      refine ⟨fun none => ?_, fun same b there found => ?_⟩
      · have only : ∀ a ∈ x :: xs, f a = y → a = x := fun a member found =>
          (List.mem_cons.1 member).resolve_right fun there => none a there found
        exact fun a left b right found found' =>
          (only a left found).trans (only b right found').symm
      · exact fresh (same x (.head _) b (.tail _ there) here found ▸ there)
    · have count : ((x :: xs).map f).count y = (xs.map f).count y := by simp [here]
      rw [count, ih nodup]
      simp [here]

/-- Every handler of an action that is referred to by a plain name of its own is bound, found and
given one stub at most, but for the exceptions that `Resolves` names. -/
theorem resolves_of_exportable [CharNames] (settings : Settings) {d : Document} {f : Flow}
    {m : Module} (exported : Check.exportable d = .ok f) (made : moduleOf settings f = .ok m)
    (fold : String → String) (plain : ∀ s, Ascii s → fold s = s) {c : Factory} {a : Action}
    {handler : String} (factory : c ∈ m.factories) (action : a ∈ nodeActions c.node)
    (handled : actionHandler? a = some handler) (unquoted : handlerReference handler = handler)
    (dotless : '.' ∉ handler.toList) : Resolves fold f m c handler := by
  obtain ⟨checked, -⟩ := Check.exportable_eq_ok.1 exported
  obtain ⟨n, owner, rfl, functions⟩ := exists_of_mem_left (functions_of_moduleOf made) factory
  have called := mem_calledStubs owner action handled (isUsableName_of_reference unquoted dotless)
  have ascii : ∀ g ∈ c.node.data.functionList.map (·.toSignature), Ascii g.name := fun g member =>
    ascii_of_functionsOf checked g
      (List.mem_append_left _ (List.mem_flatMap.2 ⟨c.node, owner, member⟩))
  have nodup : (m.stubs.map (·.name)).Nodup := by
    rw [stubs_of_moduleOf made]
    exact (freeStubs_spec ..).1
  have valid : ∀ h ∈ c.handlers, Identifier.isIdentifier h.function.name := fun h handler =>
    isIdentifier_of_functionsOf checked h.function (List.mem_append_left _ (List.mem_flatMap.2
      ⟨c.node, owner, functions ▸ List.mem_map_of_mem handler⟩))
  constructor
  · rw [← actionText_eq handled unquoted]
    exact mem_pieces_of_action action
  · exact ⟨binds_of_moduleOf checked made, Factory.spells_of_identifiers valid⟩
  · exact mem_boundNames_iff checked made plain called
  · rw [mem_localNames_iff functions ascii plain]
    simp
  · exact count_stubs made called
  · exact count_map_le_one_iff nodup fold _

theorem resolves_of_exportable_assisted : ∃ m, moduleOf {} assisted = .ok m ∧
    ∃ c ∈ m.factories, Resolves id assisted m c "record" := by
  have exported : Check.exportable assisted.document = .ok assisted := rfl
  have unquoted : handlerReference "record" = "record" := by decide +kernel
  refine ⟨_, rfl, _, .head _, ?_⟩
  exact resolves_of_exportable {} exported rfl id (fun _ _ => rfl) (.head _) (.head _) rfl unquoted
    (by decide)

/-! ## References that go wrong -/

/-- A node with functions of some names, and an action before it. -/
def acting (handler : String) (functions : List String) : Flow where
  info := { name := "Sample", version := "1.0.0" }
  nodes := [
    { id := "greet"
      role := .plain
      position := ⟨0.0, 0.0⟩
      data := {
        functions := if functions.isEmpty then none else
          some (functions.map fun name => { name, description := "" })
        preActions := some [{ type := "function", handler := some handler }] } }]
  edges := []

/-- The flow may be exported, and its module refers to a name of the router that it does not have,
with no stub for it. -/
theorem acting_operator : Check.exportable (acting "operator" []).document =
      .ok (acting "operator" []) ∧
    ∃ m, moduleOf {} (acting "operator" []) = .ok m ∧ ∃ c ∈ m.factories,
      (∃ a ∈ nodeActions c.node, actionHandler? a = some "operator") ∧
        handlerReference "operator" = "operator" ∧ "operator" ∉ m.boundNames := by
  have unquoted : handlerReference "operator" = "operator" := by decide +kernel
  refine ⟨rfl, _, rfl, _, .head _, ⟨_, .head _, rfl⟩, unquoted, ?_⟩
  decide

-- This one has a stub, but its factory finds the handler of its own function instead.
example : (moduleOf {} (acting "handle_help" ["help"])).toOption.map (fun m =>
    (m.stubs.map (·.name), m.factories.map Factory.localNames)) =
      some (["handle_help"], [["handle_help", "help_func"]]) := by decide +kernel

end Dialogue.Script
