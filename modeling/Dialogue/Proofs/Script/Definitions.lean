import Dialogue.Script.Module
import Mathlib.Data.List.Perm.Basic

/-!
# Definitions in the text of a module

The text of a module is a title, imports, and then one definition after the other, with nothing but
comments and empty lines between them. The names that are counted as bound by the module are those
that it imports and those that can be read off the definitions.
-/

namespace Dialogue.Script

/-! ## Names in code -/

/-- Characters that end a name in code. -/
def delimiters : List Char := [' ', ':', '=', '(', ')', ',']

/-- Nothing in a text ends a name. -/
def IsUnbroken (s : String) : Prop := ∀ c ∈ s.toList, c ∉ delimiters

instance (s : String) : Decidable (IsUnbroken s) := List.decidableBAll _ s.toList

theorem IsUnbroken.append {s t : String} (left : IsUnbroken s) (right : IsUnbroken t) :
    IsUnbroken (s ++ t) := by
  simp only [IsUnbroken, String.toList_append, List.mem_append]
  exact fun c member => member.elim (left c) (right c)

/-- The name that a text starts with. -/
def leadingName (cs : List Char) : String := String.ofList (cs.takeWhile (· ∉ delimiters))

/-- The first delimiter ends the name. -/
theorem leadingName_append {s : String} (unbroken : IsUnbroken s) {c : Char} (ends : c ∈ delimiters)
    (rest : List Char) : leadingName (s.toList ++ c :: rest) = s := by
  rw [leadingName, List.takeWhile_append_of_pos fun c member => by simpa using unbroken c member,
    List.takeWhile_cons_of_neg (by simpa using ends), List.append_nil, String.ofList_toList]

/-- The name that a definition binds. That of a class or a function follows a keyword; any other
definition starts with it. -/
def boundBy (definition : String) : String :=
  let cs := definition.toList
  let word := leadingName cs
  if word ∈ ["class", "def"] then leadingName (cs.drop (word.length + 1))
  else if word = "async" then leadingName (cs.drop "async def ".length)
  else word

section

variable {name : String} (unbroken : IsUnbroken name) (rest : String)
include unbroken

/-- A class or function binds the word after the keyword. -/
theorem boundBy_keyword {word : String} (keyword : word ∈ ["class", "def"]) :
    boundBy (word ++ " " ++ name ++ "(" ++ rest) = name := by
  have all : ∀ word ∈ ["class", "def"], IsUnbroken word := by decide
  have chars : (word ++ " " ++ name ++ "(" ++ rest).toList =
      word.toList ++ ' ' :: (name.toList ++ '(' :: rest.toList) := by simp
  have next : (word.toList ++ ' ' :: (name.toList ++ '(' :: rest.toList)).drop (word.length + 1) =
      name.toList ++ '(' :: rest.toList := by
    rw [← String.length_toList, List.drop_length_add_append]
    rfl
  simp only [boundBy, chars, leadingName_append (all word keyword) (by decide : ' ' ∈ delimiters),
    if_pos keyword, next, leadingName_append unbroken (by decide : '(' ∈ delimiters)]

theorem boundBy_async : boundBy ("async def " ++ name ++ "(" ++ rest) = name := by
  have first : IsUnbroken "async" := by decide
  have chars : ("async def " ++ name ++ "(" ++ rest).toList =
      "async".toList ++ ' ' :: ("def ".toList ++ (name.toList ++ '(' :: rest.toList)) := by simp
  have next : ("async".toList ++ ' ' :: ("def ".toList ++ (name.toList ++ '(' :: rest.toList))).drop
      "async def ".length = name.toList ++ '(' :: rest.toList := rfl
  have other : "async" ∉ ["class", "def"] := by decide
  simp only [boundBy, chars, leadingName_append first (by decide : ' ' ∈ delimiters), if_neg other,
    if_true, next, leadingName_append unbroken (by decide : '(' ∈ delimiters)]

theorem boundBy_assignment (other : name ∉ ["class", "def", "async"]) :
    boundBy (name ++ " = " ++ rest) = name := by
  have chars : (name ++ " = " ++ rest).toList = name.toList ++ ' ' :: ("= " ++ rest).toList := by
    simp
  have apart : name ∉ ["class", "def"] ∧ name ≠ "async" := by simpa [and_assoc] using other
  simp only [boundBy, chars, leadingName_append unbroken (by decide : ' ' ∈ delimiters),
    if_neg apart.1, if_neg apart.2]

end

/-! ## Definitions in a text -/

/-- Empty lines and comments. -/
def IsGap (s : String) : Prop :=
  ∃ ls : List String, (∀ l ∈ ls, l = "" ∨ ∃ rest, l = "#" ++ rest ∧ '\n' ∉ rest.toList) ∧
    s = String.join (ls.map (· ++ "\n"))

theorem isGap_empty : IsGap "" := ⟨[], List.forall_mem_nil _, rfl⟩

theorem isGap_feed : IsGap "\n" := ⟨[""], by simp, rfl⟩

theorem IsGap.append {s t : String} (first : IsGap s) (rest : IsGap t) : IsGap (s ++ t) := by
  obtain ⟨ls, left, rfl⟩ := first
  obtain ⟨ms, right, rfl⟩ := rest
  exact ⟨ls ++ ms, List.forall_mem_append.2 ⟨left, right⟩, by simp [String.join_append]⟩

/-- A text of definitions, one after the other. -/
inductive Lays : List String → String → Prop where
  | nil {gap : String} (isGap : IsGap gap) : Lays [] gap
  | cons {gap d rest : String} {ds : List String} (isGap : IsGap gap) (later : Lays ds rest) :
      Lays (d :: ds) (gap ++ d ++ rest)

namespace Lays

/-- Blank lines and comments define nothing. -/
theorem gap_append {ds : List String} {gap text : String} (isGap : IsGap gap)
    (lays : Lays ds text) : Lays ds (gap ++ text) := by
  cases lays with
  | nil also => exact .nil (isGap.append also)
  | cons also later =>
    rw [← String.append_assoc, ← String.append_assoc]
    exact .cons (isGap.append also) later

/-- Texts one after another lay out their definitions in order. -/
theorem append {ds es : List String} {text more : String} (first : Lays ds text)
    (rest : Lays es more) : Lays (ds ++ es) (text ++ more) := by
  induction first with
  | nil isGap => exact gap_append isGap rest
  | cons isGap _ ih =>
    rw [String.append_assoc]
    exact .cons isGap ih

/-- So do the texts of a list. -/
theorem join {α : Type} {items : List α} {definitions : α → List String} {text : α → String}
    (each : ∀ a ∈ items, Lays (definitions a) (text a)) :
    Lays (items.flatMap definitions) (String.join (items.map text)) := by
  induction items with
  | nil => exact .nil isGap_empty
  | cons a items ih =>
    rw [List.forall_mem_cons] at each
    rw [List.flatMap_cons, List.map_cons, String.join_cons]
    exact each.1.append (ih each.2)

end Lays

theorem lays_spaced (definition : String) : Lays [definition] (spaced definition) := by
  have feeds : IsGap "\n\n" := isGap_feed.append isGap_feed
  exact .cons isGap_feed (.nil feeds)

theorem isGap_title {title : String} (line : '\n' ∉ title.toList) :
    IsGap ("\n# " ++ title ++ "\n") := by
  refine ⟨["", "# " ++ title], ?_, ?_⟩
  · simp only [List.forall_mem_cons, true_or, true_and]
    exact ⟨.inr ⟨" " ++ title, by simp [← String.toList_inj], by simp [line]⟩,
      List.forall_mem_nil _⟩
  · simp [← String.toList_inj, String.join_cons, String.join_nil]

section

variable {title : String} (line : '\n' ∉ title.toList)
include line

/-- A title over a section defines nothing. -/
theorem lays_titled {ds items : List String} (lays : Lays ds (String.join items)) :
    Lays ds (titled title items) :=
  lays.gap_append (isGap_title line)

theorem lays_optionalSection {α : Type} {items : List α} {definitions : α → List String}
    {text : α → String} (each : ∀ a ∈ items, Lays (definitions a) (text a)) :
    Lays (items.flatMap definitions) (optionalSection title (items.map text)) := by
  unfold optionalSection
  split
  case isTrue empty =>
    obtain rfl : items = [] := by simpa using empty
    exact .nil isGap_empty
  case isFalse => exact lays_titled line (.join each)

end

/-! ## Definitions of a module -/

/-- The table of operators and the function that routes by it. -/
def routerDefinitions : List String :=
  [joinLines ((routerLines.drop 1).take 11), joinLines (routerLines.drop 14).dropLast]

theorem joinLines_cons {ls : List String} (more : ls ≠ []) (l : String) :
    joinLines (l :: ls) = l ++ "\n" ++ joinLines ls := by
  cases ls with
  | nil => exact absurd rfl more
  | cons m ls => exact String.intercalate_cons_cons

theorem exists_joinLines (l : String) (ls : List String) :
    ∃ rest, joinLines (l :: ls) = l ++ rest := by
  cases ls with
  | nil => exact ⟨"", by simp [joinLines]⟩
  | cons m ls => exact ⟨"\n" ++ joinLines (m :: ls), by
      rw [joinLines_cons (List.cons_ne_nil _ _), String.append_assoc]⟩

theorem lays_router : Lays routerDefinitions (joinLines routerLines) := by
  have feeds : "\n\n\n" = "\n" ++ ("\n" ++ "\n") := rfl
  have text : joinLines routerLines = "\n" ++ joinLines ((routerLines.drop 1).take 11) ++
      ("\n\n\n" ++ joinLines (routerLines.drop 14).dropLast ++ "\n") := by
    simp only [routerLines, List.drop_succ_cons, List.drop_zero, List.take_succ_cons,
      List.take_zero, List.dropLast_cons_cons, List.dropLast_singleton,
      joinLines_cons (List.cons_ne_nil _ _), feeds, String.append_assoc]
    simp only [joinLines, String.intercalate_singleton, String.append_empty, String.empty_append]
  rw [text]
  exact .cons isGap_feed
    (.cons (isGap_feed.append (isGap_feed.append isGap_feed)) (.nil isGap_feed))

theorem boundBy_router : routerDefinitions.map boundBy = ["_OPERATORS", "_route_decision"] := by
  obtain ⟨entries, table⟩ := exists_joinLines "_OPERATORS = \x7b" (routerLines.drop 2 |>.take 10)
  obtain ⟨body, routing⟩ := exists_joinLines "def _route_decision(result, branches, default):"
    (routerLines.drop 15).dropLast
  have first : boundBy ("_OPERATORS" ++ " = " ++ ("\x7b" ++ entries)) = "_OPERATORS" :=
    boundBy_assignment (by decide) _ (by decide)
  have second : boundBy ("def" ++ " " ++ "_route_decision" ++ "(" ++
      ("result, branches, default):" ++ body)) = "_route_decision" :=
    boundBy_keyword (by decide) _ (by decide)
  rw [← String.append_assoc] at first second
  have tables : joinLines ((routerLines.drop 1).take 11) = "_OPERATORS = \x7b" ++ entries := table
  have routings : joinLines (routerLines.drop 14).dropLast =
      "def _route_decision(result, branches, default):" ++ body := routing
  simp only [routerDefinitions, List.map_cons, List.map_nil, tables, routings]
  exact congrArg₂ (fun a b => [a, b]) first second

/-- What global functions bind: a handler and a descriptor each. -/
def globalNames (fs : List Signature) : List String :=
  fs.map (fun f => handlerName f.name) ++ fs.map (fun f => descriptorName f.name)

namespace Module

/-- The names bound apart from stubs. -/
def ownNames (m : Module) : List String :=
  (if m.hasRouter then routerNames else []) ++ m.imports ++ m.types.names ++
    globalNames (m.globals.map (·.function)) ++ m.factories.map fun c => factoryName c.node.id

/-- The names that the module binds at its top level, each as often as it is bound. -/
def boundNames (m : Module) : List String := m.ownNames ++ m.stubs.map (·.name)

/-- The definitions at the top level of a module, in the order of its text. -/
def definitions (m : Module) : List String :=
  m.types.map (·.definition) ++ (if m.hasRouter then routerDefinitions else []) ++
    m.stubs.map (·.text) ++ m.globals.flatMap (fun h => [h.globalText, descriptor 0 h.function]) ++
    m.factories.map (·.text)

/-- The names that a module takes from others. -/
def importedNames (m : Module) : List String :=
  (if m.hasRouter then ["operator"] else []) ++ m.imports

/-- How the text of a module binds the names that are counted. -/
structure Binds (m : Module) : Prop where
  /-- Behind its title and its imports it is made of definitions; a sketch follows as a comment. -/
  text : ∃ body, Lays m.definitions body ∧ m.text =
    headText m ++ importText m ++ body ++ "\n" ++ joinLines (usageLines m.initial m.globals)
  /-- All names bound are imported or read off the definitions. -/
  names : (m.importedNames ++ m.definitions.map boundBy).Perm m.boundNames

/-- A module is a head, imports, its definitions in order, and a note on use. -/
theorem lays_body (m : Module) : ∃ body, Lays m.definitions body ∧ m.text =
    headText m ++ importText m ++ body ++ "\n" ++ joinLines (usageLines m.initial m.globals) := by
  have types : Lays (m.types.map (·.definition))
      (titled "Type definitions" (m.types.map fun t => "\n" ++ t.definition)) := by
    rw [← List.flatMap_singleton' (m.types.map _), List.flatMap_map]
    exact lays_titled (by decide) (.join fun t _ => by
      simpa using Lays.cons isGap_feed (.nil isGap_empty))
  have router : Lays (if m.hasRouter then routerDefinitions else [])
      (if m.hasRouter then titled "Decision routing" [joinLines routerLines] else "") := by
    split
    · exact lays_titled (by decide) (by simpa [String.join_cons] using lays_router)
    · exact .nil isGap_empty
  have stubs : Lays (m.stubs.map (·.text))
      (optionalSection "Action handlers" (m.stubs.map fun s => spaced s.text)) := by
    rw [← List.flatMap_singleton' (m.stubs.map _), List.flatMap_map]
    exact lays_optionalSection (by decide) fun s _ => lays_spaced s.text
  have globals : Lays (m.globals.flatMap fun h => [h.globalText, descriptor 0 h.function])
      (optionalSection "Global functions" (m.globals.map fun h => spaced h.globalDefinition)) := by
    refine lays_optionalSection (by decide) fun h _ => ?_
    have feeds : IsGap "\n\n" := isGap_feed.append isGap_feed
    have both := Lays.cons (d := h.globalText) isGap_feed
      (.cons (d := descriptor 0 h.function) (isGap_feed.append feeds) (.nil feeds))
    simpa [spaced, Handler.globalDefinition, String.append_assoc] using both
  have factories : Lays (m.factories.map (·.text))
      (titled "Node creation functions" (m.factories.map fun f => spaced f.text)) := by
    rw [← List.flatMap_singleton' (m.factories.map _), List.flatMap_map]
    exact lays_titled (by decide) (.join fun c _ => lays_spaced c.text)
  refine ⟨_, (((types.append router).append stubs).append globals).append factories, ?_⟩
  simp only [Module.text, String.append_assoc]

/-! ### Names read off the definitions -/

theorem indent_zero : indent 0 = "" := rfl

/-- Every handler starts by the line that binds its name. -/
theorem exists_head (h : Handler) (depth : Nat) (next : String) : ∃ rest, h.head depth next =
    indent depth ++ ("async def " ++ handlerName h.function.name ++ "(" ++ rest) :=
  ⟨"args: FlowArgs, flow_manager: FlowManager) -> tuple[" ++ h.resultHint ++ ", " ++ next ++ "]:", by
    simp [Handler.head, ← String.toList_inj]⟩

theorem exists_text (h : Handler) (depth : Nat) : ∃ rest, h.text depth =
    indent depth ++ ("async def " ++ handlerName h.function.name ++ "(" ++ rest) := by
  obtain ⟨first, head⟩ := exists_head h depth h.route.hint
  rw [Handler.text, Handler.pieces, List.append_assoc, List.append_assoc, List.cons_append]
  obtain ⟨rest, text⟩ := exists_joinLines (h.head depth h.route.hint) _
  exact ⟨first ++ rest, by rw [text, head]; simp only [String.append_assoc]⟩

theorem exists_globalText (h : Handler) : ∃ rest, h.globalText =
    "async def " ++ handlerName h.function.name ++ "(" ++ rest := by
  obtain ⟨first, head⟩ := exists_head h 0 "None"
  rw [Handler.globalText, List.append_assoc, List.append_assoc, List.cons_append]
  obtain ⟨rest, text⟩ := exists_joinLines (h.head 0 "None") _
  exact ⟨first ++ rest, by
    rw [text, head, indent_zero]
    simp only [String.append_assoc, String.empty_append]⟩

theorem exists_descriptor (depth : Nat) (f : Signature) : ∃ rest, descriptor depth f =
    indent depth ++ (descriptorName f.name ++ " = " ++ rest) := by
  rw [descriptor, List.append_assoc, List.cons_append]
  obtain ⟨rest, text⟩ := exists_joinLines
    (indent depth ++ descriptorName f.name ++ " = FlowsFunctionSchema(") _
  exact ⟨"FlowsFunctionSchema(" ++ rest, by rw [text]; simp [← String.toList_inj]⟩

/-- A descriptor is bound by an assignment. -/
theorem boundBy_descriptor {f : Signature} (unbroken : IsUnbroken (descriptorName f.name))
    (rest : String) : boundBy (descriptorName f.name ++ " = " ++ rest) = descriptorName f.name := by
  refine boundBy_assignment unbroken rest fun keyword => ?_
  have other : ∀ word ∈ ["class", "def", "async"], '_' ∉ word.toList := by decide
  exact other _ keyword (by simp [descriptorName])

/-- A factory binds the name of its node. -/
theorem boundBy_factory {c : Factory} (unbroken : IsUnbroken (factoryName c.node.id)) :
    boundBy c.text = factoryName c.node.id := by
  obtain ⟨rest, text⟩ := exists_joinLines ("def " ++ factoryName c.node.id ++ "() -> NodeConfig:") _
  have start : c.text =
      "def" ++ " " ++ factoryName c.node.id ++ "(" ++ (") -> NodeConfig:" ++ rest) := by
    simp only [Factory.text, Factory.pieces, List.append_assoc, List.cons_append]
    rw [text]
    simp [← String.toList_inj]
  rw [start, boundBy_keyword unbroken _ (by simp)]

theorem boundBy_type {t : ResultType} (unbroken : IsUnbroken t.name) :
    boundBy t.definition = t.name := by
  have text : t.definition = "class" ++ " " ++ t.name ++ "(" ++ ("FlowResult):\n" ++ indent 1 ++
      "\"\"\"Result type for " ++ t.function ++ " function\"\"\"\n" ++ t.body ++ "\n") := by
    simp [ResultType.definition, ← String.toList_inj]
  rw [text, boundBy_keyword unbroken _ (by simp)]

theorem boundBy_stub {s : Stub} (unbroken : IsUnbroken s.name) : boundBy s.text = s.name := by
  have text : s.text = "async def " ++ s.name ++ "(" ++ joinLines [
      "action: dict, flow_manager: FlowManager) -> None:",
      indent 1 ++ "\"\"\"Action handler used by the " ++ s.node ++ " node\"\"\"",
      indent 1 ++ "# TODO: Implement " ++ s.name,
      indent 1 ++ "pass"] := by
    simp [Stub.text, joinLines, String.intercalate_cons_cons, ← String.toList_inj]
  rw [text, boundBy_async unbroken]

/-- Names that nothing breaks are those read off the definitions. -/
theorem boundBy_definitions {m : Module} (unbroken : ∀ name ∈ m.boundNames, IsUnbroken name) :
    m.definitions.map boundBy =
      m.types.names ++ (if m.hasRouter then ["_OPERATORS", "_route_decision"] else []) ++
        m.stubs.map (·.name) ++
        m.globals.flatMap (fun h => [handlerName h.function.name, descriptorName h.function.name]) ++
        m.factories.map fun c => factoryName c.node.id := by
  simp only [boundNames, ownNames, globalNames, Registry.names, List.map_map,
    List.forall_mem_append, List.forall_mem_map, Function.comp_apply] at unbroken
  obtain ⟨⟨⟨⟨-, types⟩, handlers, descriptors⟩, factories⟩, stubs⟩ := unbroken
  have global (h : Handler) (member : h ∈ m.globals) :
      [h.globalText, descriptor 0 h.function].map boundBy =
        [handlerName h.function.name, descriptorName h.function.name] := by
    obtain ⟨rest, handler⟩ := exists_globalText h
    obtain ⟨more, described⟩ := exists_descriptor 0 h.function
    rw [indent_zero, String.empty_append] at described
    simp [handler, described, boundBy_async (handlers h member),
      boundBy_descriptor (descriptors h member)]
  have router : (if m.hasRouter then routerDefinitions else []).map boundBy =
      if m.hasRouter then ["_OPERATORS", "_route_decision"] else [] := by
    split
    · exact boundBy_router
    · rfl
  simp only [definitions, List.map_append, List.map_map, List.map_flatMap, router, Registry.names,
    Function.comp_def]
  rw [List.map_congr_left fun t member => boundBy_type (types t member),
    List.map_congr_left fun s member => boundBy_stub (stubs s member),
    List.map_congr_left fun c member => boundBy_factory (factories c member),
    List.flatMap_def, List.map_congr_left global, ← List.flatMap_def]

/-- The definitions that the text lays out bind the names listed. -/
theorem binds_of_unbroken {m : Module} (unbroken : ∀ name ∈ m.boundNames, IsUnbroken name) :
    m.Binds := by
  refine ⟨m.lays_body, ?_⟩
  have globals := List.map_append_flatMap_perm m.globals (fun h => handlerName h.function.name)
    fun h => [descriptorName h.function.name]
  rw [boundBy_definitions unbroken, List.perm_iff_count]
  intro name
  have count := globals.count_eq name
  rw [List.count_append, ← List.map_eq_flatMap] at count
  cases router : m.hasRouter <;>
    simp only [router, importedNames, boundNames, ownNames, globalNames, routerNames, if_true,
      List.count_append, List.map_map, Function.comp_def, Bool.false_eq_true, if_false,
      List.count_cons, List.count_nil, ← count]
  all_goals omega

end Module

end Dialogue.Script
