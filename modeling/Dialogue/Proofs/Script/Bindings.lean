import Dialogue.Proofs.Check.Routing
import Dialogue.Proofs.Script.Definitions
import Dialogue.Proofs.Script.Generation
import Dialogue.Proofs.Script.TypeNames

/-!
# Names that a module binds

What a module imports and defines at its top level. Its families of names are kept apart by their
shapes, by what is reserved and by what is taken. Only the names of global functions are compared
with nothing: two of one name bind the same names, and so can a handler and a descriptor.
-/

namespace Dialogue.Script

open Literal (CharNames)

/-! ## Stubs -/

/-- No stub is made twice, or for a name that is taken. -/
theorem freeStubs_spec (taken : List String) (ss : List Stub) :
    ((freeStubs taken ss).map (·.name)).Nodup ∧ ∀ s ∈ freeStubs taken ss, s.name ∉ taken := by
  induction ss generalizing taken with
  | nil => exact ⟨List.nodup_nil, List.forall_mem_nil _⟩
  | cons s ss ih =>
    simp only [freeStubs, List.contains_iff_mem]
    split
    case isTrue => exact ih taken
    case isFalse free =>
      obtain ⟨nodup, apart⟩ := ih (s.name :: taken)
      rw [List.map_cons, List.nodup_cons, List.forall_mem_cons]
      refine ⟨⟨fun again => ?_, nodup⟩, free, fun t member there => ?_⟩
      · obtain ⟨t, member, same⟩ := List.mem_map.1 again
        exact apart t member (same ▸ .head _)
      · exact apart t member (.tail _ there)

/-! ## Families of names -/

theorem handlerName_injective : Function.Injective handlerName := by
  intro a b same
  have chars := congrArg String.toList same
  exact String.toList_inj.1 (by simpa [handlerName] using chars)

theorem descriptorName_injective : Function.Injective descriptorName := by
  intro a b same
  have chars := congrArg String.toList same
  exact String.toList_inj.1 (by simpa [descriptorName] using chars)

theorem factoryName_injective : Function.Injective factoryName := by
  intro a b same
  have chars := congrArg String.toList same
  exact String.toList_inj.1 (by simpa [factoryName] using chars)

/-- Imports and the names of the router. -/
def fixedNames : List String := routerNames ++ hostImports ++ contextImports

/-- No handler is named as an import or as a part of the router. -/
theorem handlerName_not_mem_fixed (s : String) : handlerName s ∉ fixedNames := by
  have other : ∀ name ∈ fixedNames, name.toList.take 7 ≠ "handle_".toList := by decide
  exact fun member => other _ member (by simp [handlerName])

theorem factoryName_not_mem {names : List String}
    (other : ∀ name ∈ names, name.toList.take 7 ≠ "create_".toList) (s : String) :
    factoryName s ∉ names :=
  fun member => other _ member (by simp [factoryName])

theorem factoryName_not_mem_fixed (s : String) : factoryName s ∉ fixedNames :=
  factoryName_not_mem (by decide) s

theorem getLast?_descriptorName (s : String) :
    (descriptorName s).toList.getLast? = some 'c' := by
  rw [descriptorName, String.toList_append, List.getLast?_append]
  rfl

theorem getLast?_factoryName (s : String) : (factoryName s).toList.getLast? = some 'e' := by
  rw [factoryName, String.toList_append, List.getLast?_append]
  rfl

theorem descriptorName_not_mem_fixed (s : String) : descriptorName s ∉ fixedNames := by
  have other : ∀ name ∈ fixedNames, name.toList.getLast? ≠ some 'c' := by decide
  exact fun member => other _ member (getLast?_descriptorName s)

theorem handlerName_ne_factoryName (s t : String) : handlerName s ≠ factoryName t := by
  intro same
  have first := congrArg (fun name => name.toList.head?) same
  simp [handlerName, factoryName] at first

theorem descriptorName_ne_factoryName (s t : String) : descriptorName s ≠ factoryName t := by
  intro same
  have last := getLast?_descriptorName s
  rw [same, getLast?_factoryName] at last
  cases last

theorem exists_of_mem_globalNames {fs : List Signature} {name : String}
    (member : name ∈ globalNames fs) :
    ∃ f ∈ fs, name = handlerName f.name ∨ name = descriptorName f.name := by
  rcases List.mem_append.1 member with handler | descriptor
  · obtain ⟨f, there, rfl⟩ := List.mem_map.1 handler
    exact ⟨f, there, .inl rfl⟩
  · obtain ⟨f, there, rfl⟩ := List.mem_map.1 descriptor
    exact ⟨f, there, .inr rfl⟩

theorem underscore_mem_globalNames {fs : List Signature} {name : String}
    (member : name ∈ globalNames fs) : '_' ∈ name.toList := by
  obtain ⟨f, -, rfl | rfl⟩ := exists_of_mem_globalNames member
  · simp [handlerName]
  · simp [descriptorName]

/-! ## Global functions -/

/-- Global functions have names of their own, and no handler of one is called like a descriptor. -/
structure GlobalsApart (fs : List Signature) : Prop where
  names : (fs.map (·.name)).Nodup
  kinds : ∀ f ∈ fs, ∀ g ∈ fs, handlerName f.name ≠ descriptorName g.name

/-- Global functions clash just where one is named as another's descriptor or handler. -/
theorem nodup_globalNames_iff {fs : List Signature} :
    (globalNames fs).Nodup ↔ GlobalsApart fs := by
  have handlers : (fs.map fun f => handlerName f.name).Nodup ↔ (fs.map (·.name)).Nodup := by
    rw [← List.nodup_map_iff handlerName_injective (l := fs.map (·.name)), List.map_map]
    rfl
  have descriptors : (fs.map fun f => descriptorName f.name).Nodup ↔ (fs.map (·.name)).Nodup := by
    rw [← List.nodup_map_iff descriptorName_injective (l := fs.map (·.name)), List.map_map]
    rfl
  rw [globalNames, List.nodup_append, handlers, descriptors]
  simp only [List.forall_mem_map]
  exact ⟨fun h => ⟨h.1, h.2.2⟩, fun h => ⟨h.names, h.names, h.kinds⟩⟩

/-! ## All names -/

section

variable {settings : Settings} {f : Flow} {m : Module}

/-- The names that a module binds itself, family by family. -/
theorem ownNames_of_moduleOf [CharNames] (made : moduleOf settings f = .ok m) :
    m.ownNames = (if hasDecisions f then routerNames else []) ++ importsOf f ++
      (typesOf f).names ++ globalNames (globalFunctions f) ++ f.ids.map factoryName := by
  have factories : m.factories.map (fun c => factoryName c.node.id) = f.ids.map factoryName := by
    rw [Flow.ids, List.map_map]
    exact map_of_forall₂ (factories_of_moduleOf made).1 fun c n h => by simp [h.1]
  obtain ⟨_, -, -, rfl⟩ := moduleOf_eq_ok.1 made
  have globals : (globalFunctions f).map (fun g => (globalHandlerOf (typesOf f) g).function) =
      globalFunctions f := List.map_id _
  simp only [Module.ownNames, factories, List.map_map, Function.comp_def, globals]

theorem sublist_fixedNames (f : Flow) :
    ((if hasDecisions f then routerNames else []) ++ importsOf f).Sublist fixedNames := by
  rw [importsOf, fixedNames, List.append_assoc]
  refine .append ?_ (.append (.refl _) ?_) <;> split
  all_goals first
    | exact .refl _
    | exact List.nil_sublist _

theorem apart_typesOf (f : Flow) :
    Registry.Apart (hostImports ++ contextImports) (functionsOf f) (typesOf f) :=
  Registry.apart_ofFunctions ..

theorem isIdentifier_of_functionsOf {d : Document} (checked : Flow.check d = .ok f) :
    ∀ g ∈ functionsOf f, Identifier.isIdentifier g.name := by
  intro g member
  refine Flow.identifiers_of_check checked g.name ?_
  simp only [Flow.names, List.mem_append, List.mem_flatMap]
  rcases List.mem_append.1 member with own | shared
  · obtain ⟨n, there, called⟩ := List.mem_flatMap.1 own
    obtain ⟨h, among, rfl⟩ := List.mem_map.1 called
    exact .inl (.inr ⟨n, there, h, among, .head _⟩)
  · exact .inr ⟨g, shared, .head _⟩

theorem ascii_of_functionsOf {d : Document} (checked : Flow.check d = .ok f) :
    ∀ g ∈ functionsOf f, Ascii g.name :=
  fun g member => ascii_of_isIdentifier (isIdentifier_of_functionsOf checked g member)

/-- A type is called like no import and not like the router, whose names end otherwise. -/
theorem typeName_not_mem_fixed {d : Document} (checked : Flow.check d = .ok f) :
    ∀ name ∈ (typesOf f).names, name ∉ fixedNames := by
  intro name member fixed
  have ends := ((apart_typesOf f).plain (ascii_of_functionsOf checked) name member).2.2
  rw [fixedNames, List.append_assoc, List.mem_append] at fixed
  rcases fixed with router | imported
  · have other : ∀ name ∈ routerNames, name.toList.getLast? ≠ some 't' := by decide
    exact other name router ends
  · exact (apart_typesOf f).free name member imported

/-- Only the names of global functions can clash, apart from stubs. -/
theorem nodup_ownNames_iff [CharNames] {d : Document} (checked : Flow.check d = .ok f)
    (ids : f.ids.Nodup) (made : moduleOf settings f = .ok m) :
    m.ownNames.Nodup ↔ GlobalsApart (globalFunctions f) := by
  have types := (apart_typesOf f).plain (ascii_of_functionsOf checked)
  have fixed := sublist_fixedNames f
  rw [ownNames_of_moduleOf made, ← nodup_globalNames_iff]
  refine ⟨fun nodup => ?_, fun globals => ?_⟩
  · exact nodup.sublist ((List.sublist_append_right ..).trans (List.sublist_append_left ..))
  · refine List.nodup_append.2 ⟨List.nodup_append.2 ⟨List.nodup_append.2 ⟨fixed.nodup (by decide),
      (apart_typesOf f).nodup, ?_⟩, globals, ?_⟩, ids.map factoryName_injective, ?_⟩
    · rintro name router _ type rfl
      exact typeName_not_mem_fixed checked name type (fixed.subset router)
    · rintro name before _ shared rfl
      rcases List.mem_append.1 before with router | type
      · obtain ⟨g, -, rfl | rfl⟩ := exists_of_mem_globalNames shared
        · exact handlerName_not_mem_fixed g.name (fixed.subset router)
        · exact descriptorName_not_mem_fixed g.name (fixed.subset router)
      · exact (types name type).2.1 (underscore_mem_globalNames shared)
    · rintro name before _ factory rfl
      obtain ⟨id, -, rfl⟩ := List.mem_map.1 factory
      rcases List.mem_append.1 before with before | shared
      · rcases List.mem_append.1 before with router | type
        · exact factoryName_not_mem_fixed id (fixed.subset router)
        · exact (types _ type).2.1 (by simp [factoryName])
      · obtain ⟨g, -, same | same⟩ := exists_of_mem_globalNames shared
        · exact handlerName_ne_factoryName g.name id same.symm
        · exact descriptorName_ne_factoryName g.name id same.symm

theorem stubs_of_moduleOf [CharNames] (made : moduleOf settings f = .ok m) :
    m.stubs = freeStubs (definedNames f) (calledStubs f.nodes) := by
  obtain ⟨_, -, -, rfl⟩ := moduleOf_eq_ok.1 made
  rfl

/-- All these names count as taken when stubs are made. -/
theorem ownNames_subset [CharNames] (made : moduleOf settings f = .ok m) :
    m.ownNames ⊆ definedNames f := by
  rw [ownNames_of_moduleOf made, definedNames, globalNames, Flow.ids, List.map_map]
  intro name member
  simp only [List.mem_append] at member ⊢
  rcases member with (((router | imported) | type) | handler | descriptor) | factory
  · split at router
    · exact .inl (.inl (.inl (.inr router)))
    · cases router
  · exact .inl (.inl (.inl (.inl (.inl imported))))
  · exact .inl (.inl (.inl (.inl (.inr type))))
  · exact .inl (.inl (.inr handler))
  · exact .inl (.inr descriptor)
  · exact .inr factory

/-- Stubs are told apart from each other and from all else, so they add no clash. -/
theorem nodup_boundNames_iff [CharNames] (made : moduleOf settings f = .ok m) :
    m.boundNames.Nodup ↔ m.ownNames.Nodup := by
  obtain ⟨nodup, free⟩ := freeStubs_spec (definedNames f) (calledStubs f.nodes)
  rw [← stubs_of_moduleOf made] at nodup free
  refine ⟨fun h => h.sublist (List.sublist_append_left ..), fun own => ?_⟩
  refine List.nodup_append.2 ⟨own, nodup, ?_⟩
  rintro name here _ stub rfl
  obtain ⟨s, member, rfl⟩ := List.mem_map.1 stub
  exact free s member (ownNames_subset made here)

/-- They are plain, so folding leaves them alone. -/
theorem ascii_of_mem_ownNames [CharNames] {d : Document} (checked : Flow.check d = .ok f)
    (made : moduleOf settings f = .ok m) : ∀ name ∈ m.ownNames, Ascii name := by
  have fixed : ∀ name ∈ fixedNames, Ascii name := by decide
  have valid := Flow.identifiers_of_check checked
  rw [ownNames_of_moduleOf made]
  intro name member
  rcases List.mem_append.1 member with before | factory
  · rcases List.mem_append.1 before with before | shared
    · rcases List.mem_append.1 before with router | type
      · exact fixed name ((sublist_fixedNames f).subset router)
      · exact ((apart_typesOf f).plain (ascii_of_functionsOf checked) name type).1
    · obtain ⟨g, there, made⟩ := exists_of_mem_globalNames shared
      have ascii : Ascii g.name :=
        ascii_of_functionsOf checked g (List.mem_append_right _ there)
      rcases made with rfl | rfl
      · exact .append (by decide) ascii
      · exact .append ascii (by decide)
  · obtain ⟨id, there, rfl⟩ := List.mem_map.1 factory
    have ascii : Ascii id := ascii_of_isIdentifier
      (valid id (List.mem_append_left _ (List.mem_append_left _ there)))
    exact .append (.append (by decide) ascii) (by decide +kernel)

end

/-! ## Names in the text -/

/-- What a name may have ends no name in a text. -/
theorem unbroken_of_isContinue {c : Char} (h : Identifier.isContinue c ∨ c = '\n') :
    c ∉ delimiters := by
  have other : ∀ d ∈ delimiters, ¬(Identifier.isContinue d ∨ d = '\n') := by
    simp [delimiters, Identifier.isContinue, Char.isAlphanum, Char.isAlpha, Char.isUpper,
      Char.isLower, Char.isDigit]
  exact fun member => other c member h

theorem isContinue_or_feed {s : String} (h : Identifier.isIdentifier s) :
    ∀ c ∈ s.toList, Identifier.isContinue c ∨ c = '\n' := by
  intro c member
  by_cases feed : c = '\n'
  · exact .inr feed
  · simp only [Identifier.isIdentifier, Bool.and_eq_true] at h
    exact .inl (Identifier.isContinue_of_mem h.1 (Identifier.mem_dropFinalFeed feed member))

theorem unbroken_of_isIdentifier {s : String} (h : Identifier.isIdentifier s) : IsUnbroken s :=
  fun c member => unbroken_of_isContinue (isContinue_or_feed h c member)

theorem unbroken_typeStem {s : String} (h : Identifier.isIdentifier s) :
    IsUnbroken (typeStem s) := by
  have upper (c : Char) (plain : Identifier.isContinue c ∨ c = '\n') :
      ∀ u ∈ Text.upperChars c, Identifier.isContinue u ∨ u = '\n' := by
    rcases plain with word | rfl
    · obtain ⟨v, single, -, -, keeps⟩ := upperChars_of_ascii (ascii_of_isContinue word)
      simpa [single] using .inl (keeps word).1
    · have feed : Text.upperChars '\n' = ['\n'] := by decide +kernel
      simp [feed]
  exact fun c member =>
    unbroken_of_isContinue (forall_mem_typeStem upper (isContinue_or_feed h) c member)

theorem unbroken_toString (n : Nat) : IsUnbroken (toString n) := by
  intro c member
  rw [Nat.toString_eq_ofList_toDigits, String.toList_ofList] at member
  have digit : c.isDigit := Nat.isDigit_of_mem_toDigits (by decide) (by decide) member
  exact unbroken_of_isContinue (.inl (by simp [Identifier.isContinue, Char.isAlphanum, digit]))

theorem unbroken_of_isUsableName {s : String} (usable : isUsableName s.toList) : IsUnbroken s := by
  have other : ∀ d ∈ delimiters, Text.isNameStart d = false ∧ Text.isNameContinue d = false := by
    simp [delimiters, Text.isNameStart, Text.isNameContinue, Char.isAlphanum, Char.isAlpha,
      Char.isUpper, Char.isLower, Char.isDigit]
  intro c member delimiter
  cases chars : s.toList with
  | nil => simp [chars] at member
  | cons d ds =>
    rw [chars] at usable member
    simp only [isUsableName, Text.isName, Bool.and_eq_true, List.all_eq_true] at usable
    obtain ⟨⟨start, continues⟩, -⟩ := usable
    rcases List.mem_cons.1 member with rfl | later
    · simp [(other c delimiter).1] at start
    · have word := continues c later
      simp [(other c delimiter).2] at word

theorem freeStubs_subset (taken : List String) (ss : List Stub) : freeStubs taken ss ⊆ ss := by
  induction ss generalizing taken with
  | nil => exact List.Subset.refl _
  | cons s ss ih =>
    simp only [freeStubs]
    split
    · exact List.subset_cons_of_subset s (ih taken)
    · exact List.cons_subset_cons s (ih (s.name :: taken))

theorem unbroken_of_mem_calledStubs {nodes : List FlowNode} {s : Stub}
    (called : s ∈ calledStubs nodes) : IsUnbroken s.name := by
  obtain ⟨n, -, here⟩ := List.mem_flatMap.1 called
  obtain ⟨a, -, made⟩ := List.mem_filterMap.1 here
  obtain ⟨h, filtered, rfl⟩ := Option.map_eq_some_iff.1 made
  exact unbroken_of_isUsableName (Option.filter_eq_some_iff.1 filtered).2

theorem unbroken_of_mem_types {d : Document} {f : Flow} (checked : Flow.check d = .ok f) :
    ∀ name ∈ (typesOf f).names, IsUnbroken name := by
  intro name member
  have word : IsUnbroken resultWord := by decide
  obtain ⟨g, among, rfl | ⟨n, rfl⟩⟩ := (apart_typesOf f).called name member
  · exact (unbroken_typeStem (isIdentifier_of_functionsOf checked g among)).append word
  · have stem := unbroken_typeStem (isIdentifier_of_functionsOf checked g among)
    exact (stem.append (unbroken_toString n)).append word

/-- Every bound name is read back from the text as one piece. -/
theorem unbroken_of_mem_boundNames [CharNames] {settings : Settings} {d : Document} {f : Flow}
    {m : Module} (checked : Flow.check d = .ok f) (made : moduleOf settings f = .ok m) :
    ∀ name ∈ m.boundNames, IsUnbroken name := by
  have fixed : ∀ name ∈ fixedNames, IsUnbroken name := by decide
  rw [Module.boundNames, ownNames_of_moduleOf made, stubs_of_moduleOf made]
  intro name member
  simp only [List.mem_append, List.mem_map] at member
  rcases member with (((router | type) | global) | ⟨id, there, rfl⟩) | ⟨s, stub, rfl⟩
  · exact fixed name ((sublist_fixedNames f).subset (List.mem_append.2 router))
  · exact unbroken_of_mem_types checked name type
  · obtain ⟨g, there, called⟩ := exists_of_mem_globalNames global
    have own : IsUnbroken g.name := unbroken_of_isIdentifier
      (isIdentifier_of_functionsOf checked g (List.mem_append_right _ there))
    rcases called with rfl | rfl
    · exact IsUnbroken.append (by decide) own
    · exact own.append (by decide)
  · have own : IsUnbroken id := unbroken_of_isIdentifier (Flow.identifiers_of_check checked id
      (List.mem_append_left _ (List.mem_append_left _ there)))
    exact (IsUnbroken.append (by decide) own).append (by decide)
  · exact unbroken_of_mem_calledStubs (freeStubs_subset _ _ stub)

/-- The names that are counted are the ones that the text binds. -/
theorem binds_of_moduleOf [CharNames] {settings : Settings} {d : Document} {f : Flow} {m : Module}
    (checked : Flow.check d = .ok f) (made : moduleOf settings f = .ok m) : m.Binds :=
  Module.binds_of_unbroken (unbroken_of_mem_boundNames checked made)

/-- The text of the module of a flow that may be exported binds the names that are counted. The
language of the module folds names that are not ASCII before it binds them; `fold` is any such
folding. The names bound are distinct just when the names of global functions are apart and no stub
is folded onto another name. -/
theorem boundNames_nodup_iff [CharNames] (settings : Settings) {d : Document} {f : Flow}
    {m : Module} (exported : Check.exportable d = .ok f) (made : moduleOf settings f = .ok m)
    (fold : String → String) (plain : ∀ s, Ascii s → fold s = s) :
    m.Binds ∧ ((m.boundNames.map fold).Nodup ↔ GlobalsApart (globalFunctions f) ∧
      ∀ s ∈ m.stubs, ∀ name ∈ m.boundNames, fold s.name = fold name → s.name = name) := by
  obtain ⟨checked, whole⟩ := Check.exportable_eq_ok.1 exported
  refine ⟨binds_of_moduleOf checked made, ?_⟩
  have own := ascii_of_mem_ownNames checked made
  have stub {s : Stub} (member : s ∈ m.stubs) : s.name ∈ m.boundNames :=
    List.mem_append_right _ (List.mem_map_of_mem member)
  rw [← nodup_ownNames_iff checked whole.ids made, ← nodup_boundNames_iff made]
  constructor
  · intro folded
    have written := folded.of_map
    have inj := (List.nodup_map_iff_inj_on written).1 folded
    exact ⟨written, fun s member name there => inj _ (stub member) _ there⟩
  · rintro ⟨written, apart⟩
    refine (List.nodup_map_iff_inj_on written).2 fun a here b there same => ?_
    -- Only a stub can be folded at all; two other names are their own foldings.
    rcases List.mem_append.1 here with a_own | a_stub
    · rcases List.mem_append.1 there with b_own | b_stub
      · rwa [plain a (own a a_own), plain b (own b b_own)] at same
      · obtain ⟨s, member, rfl⟩ := List.mem_map.1 b_stub
        exact (apart s member a here same.symm).symm
    · obtain ⟨s, member, rfl⟩ := List.mem_map.1 a_stub
      exact apart s member b there same

/-- Two global functions, and an action whose handler is given as a stub. -/
def assisted : Flow where
  info := { name := "Sample", version := "1.0.0" }
  globalFunctions := some [
    { name := "help", description := "" },
    { name := "stop", description := "" }]
  nodes := [
    { id := "greet"
      role := .plain
      position := ⟨0.0, 0.0⟩
      data := { preActions := some [{ type := "function", handler := some "record" }] } }]
  edges := []

theorem boundNames_nodup_assisted :
    ∃ m, moduleOf {} assisted = .ok m ∧ (m.boundNames.map id).Nodup := by
  have exported : Check.exportable assisted.document = .ok assisted := rfl
  refine ⟨_, rfl, (boundNames_nodup_iff {} exported rfl id fun _ _ => rfl).2.2 ⟨⟨?_, ?_⟩, ?_⟩⟩
  · decide
  · decide
  · exact fun _ _ _ _ same => same

/-! ## Clashes -/

/-- Both global functions are called the same. -/
def helpTwice : Flow where
  info := { name := "Sample", version := "1.0.0" }
  globalFunctions := some [
    { name := "help", description := "" },
    { name := "help", description := "" }]
  nodes := [{ id := "greet", role := .plain, position := ⟨0.0, 0.0⟩, data := {} }]
  edges := []

/-- The flow may be exported, and its module defines the handler and the descriptor twice. -/
theorem helpTwice_clashes : Check.exportable helpTwice.document = .ok helpTwice ∧
    ∃ m, moduleOf {} helpTwice = .ok m ∧ ¬ m.boundNames.Nodup := by
  refine ⟨rfl, _, rfl, ?_⟩
  decide

end Dialogue.Script
