import Dialogue.Proofs.Script.Routing
import Dialogue.Proofs.Script.SharedTypes

/-!
# Locals of handlers

A handler binds every argument to a local that is called like the property, unless the handler
itself needs that name: then other names are tried until one is free. No two properties share a
local and no local hides what the handler refers to, so that each field of its result gets the
argument of its own property, and its routes lead to factories.
-/

namespace Dialogue.Script

open Literal (CharNames)

/-! ## The search for a free local -/

/-- The names tried, one after the other, for a property that cannot keep its own. -/
def candidate (property : String) : Nat → String
  | 0 => valueName property
  | n + 1 => numberedValue property (n + 2)

theorem candidate_injective (property : String) : Function.Injective (candidate property) := by
  -- The number at the end of a candidate tells its place; where there is none, it reads as zero.
  have chars (n : Nat) : ∃ digits, (candidate property n).toList =
      (valueName property).toList ++ digits ∧
      Nat.ofDigitChars 10 digits 0 = if n = 0 then 0 else n + 1 := by
    cases n with
    | zero => exact ⟨[], by simp [candidate], rfl⟩
    | succ n =>
      exact ⟨(toString (n + 2)).toList, by simp [candidate, numberedValue], by simp⟩
  intro m n same
  obtain ⟨ms, left, first⟩ := chars m
  obtain ⟨ns, right, second⟩ := chars n
  rw [same, right, List.append_cancel_left_eq] at left
  rw [← left, second] at first
  grind

/-- The search from a candidate on ends, with this name: as long as names are taken, it goes on. -/
inductive Finds (taken : List String) (property : String) : Nat → String → Prop
  | free {n : Nat} (free : candidate property n ∉ taken) :
      Finds taken property n (candidate property n)
  | next {n : Nat} {name : String} (known : candidate property n ∈ taken)
      (rest : Finds taken property (n + 1) name) : Finds taken property n name

section

variable {reserved taken : List String} {property name : String} {n : Nat}

theorem Finds.not_mem (found : Finds taken property n name) : name ∉ taken := by
  induction found with
  | free free => exact free
  | next _ _ ih => exact ih

theorem Finds.congr {others : List String} (found : Finds taken property n name)
    (same : ∀ a, a ∈ taken ↔ a ∈ others) : Finds others property n name := by
  induction found with
  | free free => exact .free fun known => free ((same _).2 known)
  | next known _ ih => exact .next ((same _).1 known) ih

/-- With fuel for one more free candidate the search finds the first one. -/
theorem finds_freeLocal {fuel k : Nat} (low : n < k) (high : k ≤ n + 1 + fuel)
    (free : candidate property k ∉ taken) :
    Finds taken property (n + 1) (freeLocal taken property (n + 2) fuel) := by
  induction fuel generalizing n with
  | zero =>
    obtain rfl : k = n + 1 := by omega
    exact .free free
  | succ fuel ih =>
    simp only [freeLocal, List.contains_iff_mem]
    split
    case isTrue known =>
      have later : k ≠ n + 1 := by
        rintro rfl
        exact free known
      exact .next known (ih (by omega) (by omega))
    case isFalse first => exact .free first

/-- The number of taken names bounds the search. -/
theorem finds_chooseLocal (taken : List String) (property : String) :
    Finds taken property 0 (chooseLocal taken property) := by
  obtain ⟨k, bound, free⟩ := exists_free (candidate_injective property) taken
  simp only [chooseLocal, List.contains_iff_mem]
  split
  case isTrue known =>
    have later : k ≠ 0 := by
      rintro rfl
      exact free known
    exact .next known (finds_freeLocal (by omega) (by omega) free)
  case isFalse first => exact .free first

/-! ## Locals for some properties -/

/-- The locals that some properties are given beside names that are reserved. -/
structure Naming (reserved properties : List String) (locals : List (String × String)) : Prop where
  /-- Every property has a local, in order. -/
  keys : locals.map (·.1) = properties
  /-- No two properties have the same local. -/
  apart : ∀ a ∈ locals, ∀ b ∈ locals, a.2 = b.2 → a.1 = b.1
  nodup : properties.Nodup → (locals.map (·.2)).Nodup
  free : ∀ a ∈ locals, a.2 ∉ reserved
  kept : ∀ a ∈ locals, a.1 ∉ reserved → a.2 = a.1
  /-- The search for any other local ends. It passes over what is reserved, all properties and the
  locals given before. -/
  searched : ∀ before a after, locals = before ++ a :: after → a.1 ∈ reserved →
    Finds (reserved ++ properties ++ before.map (·.2)) a.1 0 a.2

variable {ps : List String}

/-- Every property gets one name, in order. -/
theorem keys_localsFrom (reserved taken ps : List String) :
    (localsFrom reserved taken ps).map (·.1) = ps := by
  fun_induction localsFrom <;> simp_all

/-- A name is kept, or replaced by one that is not taken. -/
theorem cases_of_mem_localsFrom {a : String × String} (member : a ∈ localsFrom reserved taken ps) :
    a.1 ∉ reserved ∧ a.2 = a.1 ∨ a.1 ∈ reserved ∧ a.2 ∉ taken := by
  fun_induction localsFrom with
  | case1 => cases member
  | case2 taken p ps isReserved name ih =>
    rw [List.contains_iff_mem] at isReserved
    rcases List.mem_cons.1 member with rfl | member
    · exact .inr ⟨isReserved, (finds_chooseLocal taken p).not_mem⟩
    · exact (ih member).imp_right fun h => ⟨h.1, fun known => h.2 (.tail _ known)⟩
  | case3 taken p ps isFree ih =>
    rw [List.contains_iff_mem] at isFree
    rcases List.mem_cons.1 member with rfl | member
    · exact .inl ⟨isFree, rfl⟩
    · exact ih member

/-- Locals differ as long as the properties themselves are among the names taken. -/
theorem pairwise_localsFrom (own : ps ⊆ taken) :
    (localsFrom reserved taken ps).Pairwise fun a b => a.2 = b.2 → a.1 = b.1 := by
  fun_induction localsFrom with
  | case1 => exact .nil
  | case2 taken p ps isReserved name ih =>
    have fresh := (finds_chooseLocal taken p).not_mem
    obtain ⟨-, own⟩ := List.cons_subset.1 own
    refine .cons (fun b later same => ?_) (ih fun q member => .tail _ (own member))
    have property : b.1 ∈ ps := by
      rw [← keys_localsFrom reserved (name :: taken) ps]
      exact List.mem_map_of_mem later
    obtain ⟨-, self⟩ | ⟨-, other⟩ := cases_of_mem_localsFrom later
    · rw [← self, ← same] at property
      exact absurd (own property) fresh
    · exact absurd (same ▸ .head _) other
  | case3 taken p ps isFree ih =>
    obtain ⟨here, own⟩ := List.cons_subset.1 own
    refine .cons (fun b later same => ?_) (ih own)
    obtain ⟨-, self⟩ | ⟨-, other⟩ := cases_of_mem_localsFrom later
    · exact same.trans self
    · exact absurd (same ▸ here) other

/-- Each new name is the first that is free after the ones before it. -/
theorem finds_localsFrom (own : ps ⊆ taken) {before after : List (String × String)}
    {a : String × String} (split : localsFrom reserved taken ps = before ++ a :: after)
    (isReserved : a.1 ∈ reserved) : Finds (taken ++ before.map (·.2)) a.1 0 a.2 := by
  induction before generalizing taken ps with
  | nil =>
    cases ps with
    | nil => cases split
    | cons p ps =>
      rw [localsFrom] at split
      split at split
      case isTrue =>
        obtain ⟨rfl, -⟩ := List.cons.inj split
        simpa using finds_chooseLocal taken p
      case isFalse isFree =>
        obtain ⟨rfl, -⟩ := List.cons.inj split
        exact absurd (List.contains_iff_mem.2 isReserved) isFree
  | cons b before ih =>
    cases ps with
    | nil => cases split
    | cons p ps =>
      obtain ⟨here, own⟩ := List.cons_subset.1 own
      rw [localsFrom] at split
      split at split
      case isTrue =>
        obtain ⟨rfl, rest⟩ := List.cons.inj split
        exact (ih (fun q member => .tail _ (own member)) rest).congr (by simp; grind)
      case isFalse =>
        obtain ⟨rfl, rest⟩ := List.cons.inj split
        exact (ih own rest).congr (by simp; grind)

end

/-- The names given are apart and none is reserved. -/
theorem naming_localNames (reserved properties : List String) :
    Naming reserved properties (localNames reserved properties) := by
  have own : properties ⊆ reserved ++ properties := List.subset_append_right ..
  have keys := keys_localsFrom reserved (reserved ++ properties) properties
  have symm : Std.Symm fun a b : String × String => a.2 = b.2 → a.1 = b.1 :=
    ⟨fun a b same other => (same other.symm).symm⟩
  have apart : ∀ a ∈ localNames reserved properties, ∀ b ∈ localNames reserved properties,
      a.2 = b.2 → a.1 = b.1 := fun a first b second =>
    List.Pairwise.forall_of_forall (fun _ _ _ => rfl) (pairwise_localsFrom own) first second
  refine ⟨keys, apart, fun nodup => ?_, fun a member => ?_, fun a member other => ?_, ?_⟩
  · rw [← keys] at nodup
    exact nodup.of_map.map_on fun a first b second same =>
      Prod.ext (apart a first b second same) same
  · obtain ⟨other, self⟩ | ⟨-, fresh⟩ := cases_of_mem_localsFrom member
    · rwa [self]
    · exact fun known => fresh (List.mem_append_left _ known)
  · obtain ⟨-, self⟩ | ⟨isReserved, -⟩ := cases_of_mem_localsFrom member
    · exact self
    · exact absurd isReserved other
  · exact fun before a after split => finds_localsFrom own split

/-! ## Locals of a handler -/

/-- The locals of a handler differ from each other and from some names. -/
structure Handler.Apart (h : Handler) (names : List String) : Prop where
  injective : ∀ p ∈ propertyNames h.function, ∀ q ∈ propertyNames h.function,
    h.localOf p = h.localOf q → p = q
  free : ∀ p ∈ propertyNames h.function, h.localOf p ∉ names

theorem Handler.mem_locals {h : Handler} {p : String} (member : p ∈ h.locals.map (·.1)) :
    (p, h.localOf p) ∈ h.locals := by
  obtain ⟨a, there, rfl⟩ := List.mem_map.1 member
  have named : (h.locals.lookup a.1).isSome := List.lookup_isSome_iff.2 ⟨a, there, by simp⟩
  obtain ⟨name, found⟩ := Option.isSome_iff_exists.1 named
  obtain ⟨before, after, split, -⟩ := List.lookup_eq_some_iff.1 found
  rw [Handler.localOf, found, split]
  simp

theorem Handler.apart_of_naming {h : Handler} {reserved : List String}
    (naming : Naming reserved (propertyNames h.function) h.locals) : h.Apart reserved := by
  have given {p : String} (member : p ∈ propertyNames h.function) : (p, h.localOf p) ∈ h.locals :=
    h.mem_locals (by rwa [naming.keys])
  constructor
  · intro p first q second same
    exact naming.apart _ (given first) _ (given second) same
  · intro p member
    exact naming.free _ (given member)

theorem apart_globalHandlerOf (types : Registry) (f : Signature) :
    (globalHandlerOf types f).Apart (globalHandlerNames ++ (types.nameOf? f).toList) :=
  Handler.apart_of_naming (naming_localNames ..)

/-! ## What a handler reads -/

/-- What a name refers to: what it stands for around the handler, or what is got out of something
for a key. -/
inductive Reference where
  | outer (name : String)
  | entry (container : Reference) (key : String)

abbrev Environment := String → Reference

namespace Handler

variable {h : Handler} {names : List String}

/-- Binds the local of a property to the entry for it of whatever `args` refers to. -/
def bindLocal (h : Handler) (env : Environment) (property : String) : Environment :=
  Function.update env (h.localOf property) (.entry (env "args") property)

/-- What names refer to once all arguments are bound. -/
def environment (h : Handler) : Environment :=
  (propertyNames h.function).foldl h.bindLocal .outer

/-- The type of the result, with what each field is given. -/
def returned (h : Handler) (env : Environment) :
    Option (Reference × List (String × Reference)) :=
  h.typeName.map fun t => (env t, (propertyNames h.function).map fun p => (p, env (h.localOf p)))

/-- Binding locals leaves other names as they were. -/
theorem foldl_bindLocal_of_ne {ps : List String} {name : String}
    (other : ∀ p ∈ ps, h.localOf p ≠ name) (env : Environment) :
    ps.foldl h.bindLocal env name = env name := by
  induction ps generalizing env with
  | nil => rfl
  | cons p ps ih =>
    obtain ⟨first, other⟩ := List.forall_mem_cons.1 other
    rw [List.foldl_cons, ih other, bindLocal, Function.update_of_ne first.symm]

/-- No binding reads what an earlier one has bound. -/
theorem foldl_bindLocal {ps : List String}
    (injective : ∀ p ∈ ps, ∀ q ∈ ps, h.localOf p = h.localOf q → p = q)
    (args : ∀ p ∈ ps, h.localOf p ≠ "args") (env : Environment) :
    ∀ p ∈ ps, ps.foldl h.bindLocal env (h.localOf p) = .entry (env "args") p := by
  induction ps generalizing env with
  | nil => exact List.forall_mem_nil _
  | cons q ps ih =>
    obtain ⟨first, rest⟩ := List.forall_mem_cons.1 args
    have later := ih (fun a left b right => injective a (.tail _ left) b (.tail _ right)) rest
      (h.bindLocal env q)
    have kept : h.bindLocal env q "args" = env "args" := Function.update_of_ne first.symm ..
    intro p member
    rw [List.foldl_cons]
    by_cases again : p ∈ ps
    · rw [later p again, kept]
    · obtain rfl : p = q := (List.mem_cons.1 member).resolve_right again
      have unbound : ∀ r ∈ ps, h.localOf r ≠ h.localOf p := fun r there same =>
        again (injective r (.tail _ there) p (.head _) same ▸ there)
      rw [foldl_bindLocal_of_ne unbound, bindLocal, Function.update_self]

namespace Apart

/-- A local reads the argument of its property. -/
theorem environment_local (apart : h.Apart names) (args : "args" ∈ names) :
    ∀ p ∈ propertyNames h.function, h.environment (h.localOf p) = .entry (.outer "args") p :=
  foldl_bindLocal apart.injective
    (fun p member same => apart.free p member (same ▸ args)) .outer

/-- A reserved name reads what it did outside. -/
theorem environment_of_mem (apart : h.Apart names) {name : String} (member : name ∈ names) :
    h.environment name = .outer name :=
  foldl_bindLocal_of_ne (fun p there same => apart.free p there (same ▸ member)) .outer

/-- Each field of the result is given the argument for the property of its name, even if some of
the names that are no locals have been bound anew. -/
theorem returned_eq (apart : h.Apart names) (args : "args" ∈ names) {touched : List String}
    (within : touched ⊆ names) (type : ∀ t, h.typeName = some t → t ∈ names ∧ t ∉ touched)
    {after : Environment} (kept : ∀ name ∉ touched, after name = h.environment name) :
    h.returned after = h.typeName.map fun t =>
      (.outer t, (propertyNames h.function).map fun p => (p, .entry (.outer "args") p)) := by
  refine Option.map_congr fun t named => ?_
  obtain ⟨among, other⟩ := type t named
  rw [kept t other, apart.environment_of_mem among]
  refine congrArg _ (List.map_congr_left fun p member => ?_)
  rw [kept _ fun known => apart.free p member (within known), apart.environment_local args p member]

end Apart
end Handler

/-- Every result type ends in one word, as no factory does. -/
theorem resultWord_suffix {reserved : List String} {fs : List Signature} {name : String}
    (member : name ∈ (Registry.ofFunctions reserved fs).names) :
    resultWord.toList <:+ name.toList := by
  obtain ⟨f, -, rfl | ⟨n, rfl⟩⟩ := (Registry.apart_ofFunctions reserved fs).called name member
  · exact ⟨(typeStem f.name).toList, (String.toList_append ..).symm⟩
  · exact ⟨(typeStem f.name ++ toString n).toList, (String.toList_append ..).symm⟩

theorem apart_of_handlerOf [CharNames] {types : Registry} {g : NodeFunction} {h : Handler}
    (made : handlerOf types g = .ok h) :
    h.typeName = types.nameOf? g.toSignature ∧
      h.Apart (handlerNames ++ (types.nameOf? g.toSignature).toList ++
        g.routes.map factoryName) := by
  obtain ⟨route, routed, -, rfl⟩ := handlerOf_eq_ok.1 made
  rw [← targets_of_routeOf routed]
  exact ⟨rfl, Handler.apart_of_naming (naming_localNames ..)⟩

/-- The handler of a node function returns every argument in the field of its own property, and its
routes refer to the router and to factories, as long as the action of its decision binds nothing
but the result. -/
theorem returned_of_handlerOf [CharNames] {reserved : List String} {fs : List Signature}
    {g : NodeFunction} {h : Handler} (made : handlerOf (Registry.ofFunctions reserved fs) g = .ok h)
    {after : Environment}
    (kept : ∀ name ∉ ["result", "next_node"], after name = h.environment name) :
    h.returned after = h.typeName.map (fun t =>
      (.outer t, (propertyNames g.toSignature).map fun p => (p, .entry (.outer "args") p))) ∧
      (∀ t ∈ g.routes, after (factoryName t) = .outer (factoryName t)) ∧
      after "_route_decision" = .outer "_route_decision" := by
  obtain ⟨named, apart⟩ := apart_of_handlerOf made
  have fixed : handlerNames ⊆ handlerNames ++
      ((Registry.ofFunctions reserved fs).nameOf? g.toSignature).toList ++
        g.routes.map factoryName :=
    fun name member => List.mem_append_left _ (List.mem_append_left _ member)
  refine ⟨?_, fun t leads => ?_, ?_⟩
  · have within : ["result", "next_node"] ⊆ handlerNames := by decide
    rw [← function_of_handlerOf made]
    refine apart.returned_eq (fixed (by decide)) (List.Subset.trans within fixed)
      (fun t type => ?_) kept
    rw [named] at type
    refine ⟨by simp [type], fun rebound => ?_⟩
    -- The names of types end in a word that neither of the two names ends in.
    obtain ⟨u, member, rfl, -⟩ := Registry.exists_of_nameOf? type
    have other : ∀ name ∈ ["result", "next_node"], ¬resultWord.toList <:+ name.toList := by decide
    exact other _ rebound (resultWord_suffix (List.mem_map_of_mem member))
  · rw [kept _ (factoryName_not_mem (by decide) t)]
    exact apart.environment_of_mem (List.mem_append_right _ (List.mem_map_of_mem leads))
  · rw [kept _ (by decide)]
    exact apart.environment_of_mem (fixed (by decide))

/-- So does the handler of a global function, which has no routes. -/
theorem returned_globalHandlerOf (types : Registry) (f : Signature) :
    (globalHandlerOf types f).returned (globalHandlerOf types f).environment =
      (types.nameOf? f).map fun t =>
        (.outer t, (propertyNames f).map fun p => (p, .entry (.outer "args") p)) := by
  have apart := apart_globalHandlerOf types f
  refine apart.returned_eq (List.mem_append_left _ (by decide)) (List.nil_subset _) ?_
    fun _ _ => rfl
  intro t type
  have named : types.nameOf? f = some t := type
  exact ⟨List.mem_append_right _ (by simp [named]), List.not_mem_nil⟩

/-! ## What the text of a handler binds -/

/-- How the text of a handler spells out what it binds and returns. -/
structure Handler.Spells (h : Handler) : Prop where
  /-- Behind its head and its title the text binds the locals. -/
  bindings : ∃ head title rest, h.pieces 1 = [head, title] ++ h.bindings 2 ++ rest
  /-- A line binds the local of each property, in order, to the argument of that name. -/
  binds : List.Forall₂ (fun line p => ∃ hint default, line = indent 2 ++ h.localOf p ++ ": " ++
    hint ++ " = args.get(" ++ string p ++ ", " ++ default ++ ")")
    (h.bindings 2) (propertyNames h.function)
  /-- The last line returns the result. -/
  returns : ∃ front next,
    h.pieces 1 = front ++ [indent 2 ++ "return " ++ h.resultExpression ++ ", " ++ next]
  /-- The result is given each local for the property that it holds. -/
  result : ∀ t, h.typeName = some t → h.resultExpression =
    t ++ "(" ++ commaSeparated ((propertyNames h.function).map fun p => p ++ "=" ++ h.localOf p) ++
      ")"

/-- Whatever its route is, a handler ends by returning its result and what comes next. -/
theorem Route.exists_return (r : Route) (depth : Nat) (result : String) : ∃ front next,
    r.lines depth result = front ++ [indent depth ++ "return " ++ result ++ ", " ++ next] := by
  cases r with
  | decision action branches fallback =>
    have word : ", next_node" = ", " ++ "next_node" := rfl
    exact ⟨_, "next_node", by rw [Route.lines, word, ← String.append_assoc]⟩
  | direct target =>
    exact ⟨[], factoryName target ++ "()", by simp [Route.lines, String.append_assoc]⟩
  | nowhere =>
    have word : ", None" = ", " ++ "None" := rfl
    exact ⟨[], "None", by rw [Route.lines, word, ← String.append_assoc, List.nil_append]⟩

/-- The text of a handler shows the names that its record has. -/
theorem Handler.spells (h : Handler) : h.Spells where
  bindings := ⟨_, _, _, List.append_assoc ..⟩
  binds := by
    rw [propertyNames, bindings, List.forall₂_map_left_iff, List.forall₂_map_right_iff,
      List.forall₂_same]
    exact fun q _ => ⟨(argumentType q.2).hint, (argumentType q.2).default, rfl⟩
  returns := by
    obtain ⟨front, next, lines⟩ := h.route.exists_return 2 h.resultExpression
    rw [pieces, lines, ← List.append_assoc]
    exact ⟨_, next, rfl⟩
  result t type := by rw [resultExpression, type]

/-! ## Nothing is captured -/

/-- No local of a node function's handler hides what the handler refers to. -/
structure CaptureFree (types : Registry) (g : NodeFunction) (h : Handler) : Prop where
  function : h.function = g.toSignature
  typeName : h.typeName = types.nameOf? g.toSignature
  injective : ∀ p ∈ propertyNames g.toSignature, ∀ q ∈ propertyNames g.toSignature,
    h.localOf p = h.localOf q → p = q
  /-- They are called like nothing that stands in every handler. -/
  fixed : ∀ p ∈ propertyNames g.toSignature,
    h.localOf p ∉ ["args", "flow_manager", "result", "next_node", "_route_decision"]
  /-- None is called like the type of the result. -/
  type : ∀ p ∈ propertyNames g.toSignature, types.nameOf? g.toSignature ≠ some (h.localOf p)
  /-- None is called like the factory of a node that the function can lead to. -/
  factories : ∀ p ∈ propertyNames g.toSignature, ∀ t ∈ g.routes, h.localOf p ≠ factoryName t
  /-- The text of the handler binds these locals and makes its result of them. -/
  spells : h.Spells
  /-- So every argument gets into the field of its own property, and the routes refer to the router
  and to factories, as long as the action of the decision binds nothing but the result. -/
  returned : ∀ reserved fs, types = Registry.ofFunctions reserved fs → ∀ after : Environment,
    (∀ name ∉ ["result", "next_node"], after name = h.environment name) →
    h.returned after = h.typeName.map (fun t =>
      (.outer t, (propertyNames g.toSignature).map fun p => (p, .entry (.outer "args") p))) ∧
      (∀ t ∈ g.routes, after (factoryName t) = .outer (factoryName t)) ∧
      after "_route_decision" = .outer "_route_decision"

section

variable [CharNames] {types : Registry} {g : NodeFunction} {h : Handler}

theorem captureFree_of_handlerOf (made : handlerOf types g = .ok h) : CaptureFree types g h := by
  obtain ⟨typeName, injective, free⟩ := apart_of_handlerOf made
  rw [function_of_handlerOf made] at injective free
  simp only [List.mem_append, not_or] at free
  refine ⟨function_of_handlerOf made, typeName, injective, fun p member => ?_,
    fun p member type => ?_, fun p member t leads same => ?_, h.spells, ?_⟩
  · exact (free p member).1.1
  · exact (free p member).1.2 (by simp [type])
  · exact (free p member).2 (same ▸ List.mem_map_of_mem leads)
  · rintro reserved fs rfl after kept
    exact returned_of_handlerOf made kept

/-- Whatever is reserved, the properties of a function are given locals of their own, and in the
handler of a node function none of these is a name that the handler itself refers to. The handler of
a global function gives its arguments to the fields of their own properties as well. -/
theorem locals_captureFree (reserved : List String) (f : Signature)
    (made : handlerOf types g = .ok h) :
    Naming reserved (propertyNames f) (localNames reserved (propertyNames f)) ∧
      CaptureFree types g h ∧
      (globalHandlerOf types f).returned (globalHandlerOf types f).environment =
        (types.nameOf? f).map fun t =>
          (.outer t, (propertyNames f).map fun p => (p, .entry (.outer "args") p)) :=
  ⟨naming_localNames reserved (propertyNames f), captureFree_of_handlerOf made,
    returned_globalHandlerOf types f⟩

end

/-- The properties of this function are called like what its handler refers to, and like the names
that would be tried for them. -/
def imitating : NodeFunction where
  name := "choose"
  description := ""
  properties := some [
    ("args", { type := "string" }),
    ("args_value2", { type := "string" }),
    ("args_value", { type := "string" }),
    ("ChooseResult", { type := "string" }),
    ("create_close_node", { type := "string" }),
    ("size", { type := "string" })]
  decision := some {
    action := "result = 1"
    conditions := [⟨.equal, "1", "close"⟩]
    fallback := "greet" }

theorem locals_captureFree_imitating : ∃ h,
    handlerOf (Registry.ofFunctions [] [imitating.toSignature]) imitating = .ok h ∧
      Naming ["args", "size"] (propertyNames imitating.toSignature)
        (localNames ["args", "size"] (propertyNames imitating.toSignature)) ∧
      CaptureFree (Registry.ofFunctions [] [imitating.toSignature]) imitating h := by
  have written : (handlerOf (Registry.ofFunctions [] [imitating.toSignature]) imitating).isOk := by
    decide +kernel
  obtain ⟨h, made⟩ := exists_of_isOk written
  obtain ⟨naming, free, -⟩ := locals_captureFree ["args", "size"] imitating.toSignature made
  exact ⟨h, made, naming, free⟩

example : localNames
    (handlerNames ++ ["ChooseResult", "create_close_node", "create_greet_node"])
    (propertyNames imitating.toSignature) =
      [("args", "args_value3"), ("args_value2", "args_value2"), ("args_value", "args_value"),
        ("ChooseResult", "ChooseResult_value"),
        ("create_close_node", "create_close_node_value"), ("size", "size")] := by decide +kernel

end Dialogue.Script
