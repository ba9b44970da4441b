import Dialogue.Flow.Role
import Dialogue.Graph.Decisions
import Dialogue.Proofs.Document.Entries
import Dialogue.Proofs.Document.Outcome
import Mathlib.Data.List.Nodup

/-!
# What reconciling gives

After reconciling there is one decision node for each id that a decision of a regular node calls
for, and none else. It shows the summary of such a decision. Regular nodes stay as they are.
-/

namespace Dialogue.Graph

/-- The nodes that are no decision nodes. -/
def regular (nodes : List Node) : List Node := nodes.filter fun n => !n.isDecision

def decisionIds (nodes : List Node) : List String := (nodes.filter (·.isDecision)).map (·.id)

/-- A node that shows a role is no decision node. -/
theorem isDecision_of_role {n : Node} (r : Role) (kind : n.kind = r.name) :
    n.isDecision = false := by
  rw [Node.isDecision, kind]
  cases r <;> decide

theorem mem_regular {nodes : List Node} {n : Node} :
    n ∈ regular nodes ↔ n ∈ nodes ∧ n.isDecision = false := by
  simp [regular]

theorem mem_decisionIds {nodes : List Node} {id : String} :
    id ∈ decisionIds nodes ↔ ∃ n ∈ nodes, n.isDecision ∧ n.id = id := by
  simp [decisionIds, and_assoc]

theorem regular_cons (n : Node) (ns : List Node) :
    regular (n :: ns) = if n.isDecision then regular ns else n :: regular ns := by
  cases h : n.isDecision <;> simp [regular, h]

theorem decisionIds_cons (n : Node) (ns : List Node) :
    decisionIds (n :: ns) = if n.isDecision then n.id :: decisionIds ns else decisionIds ns := by
  cases h : n.isDecision <;> simp [decisionIds, h]

theorem regular_append (ns ms : List Node) : regular (ns ++ ms) = regular ns ++ regular ms :=
  List.filter_append ..

theorem decisionIds_append (ns ms : List Node) :
    decisionIds (ns ++ ms) = decisionIds ns ++ decisionIds ms := by
  simp [decisionIds]

/-- The only item with a property is the one found. -/
theorem find?_of_unique {α : Type} {p : α → Bool} {xs : List α} {x : α} (member : x ∈ xs)
    (holds : p x) (unique : ∀ y ∈ xs, p y → y = x) : xs.find? p = some x := by
  cases h : xs.find? p with
  | none => exact absurd holds (List.find?_eq_none.1 h x member)
  | some y => rw [unique y (List.mem_of_find?_eq_some h) (List.find?_some h)]

/-! ## Functions that are maps -/

theorem mem_mapsOf {ds : List Document} {es : Entries} : es ∈ Node.mapsOf ds ↔ .map es ∈ ds := by
  refine List.mem_filterMap.trans ⟨?_, fun there => ⟨_, there, rfl⟩⟩
  rintro ⟨d, there, same⟩
  cases d with
  | map fs => rwa [← Option.some.inj same]
  | _ => cases same

/-- Only lists have map entries. -/
theorem eq_list_of_elementsOrNone {d : Document} {ds : List Document} {es : Entries}
    (h : d.elementsOrNone = .ok ds) (member : .map es ∈ ds) : d = .list ds := by
  unfold Document.elementsOrNone at h
  split at h
  case isFalse =>
    obtain rfl := Except.ok.inj h
    cases member
  case isTrue =>
    unfold Document.elements at h
    split at h
    case h_1 => rw [Except.ok.inj h]
    case h_5 => cases h
    -- Keys and characters are no maps.
    all_goals
      obtain rfl := Except.ok.inj h
      simp at member

/-! ## The decisions that should have a node -/

/-- A function with a name and a decision, among those of a regular node. -/
structure Owned.Among (o : Owned) (nodes : List Node) : Prop where
  owner : o.owner ∈ nodes
  regular : o.owner.isDecision = false
  function : ∃ fs, o.owner.functions = .ok fs ∧ o.function ∈ fs
  decision : o.function.get "decision" = .map o.decision
  named : o.name.isTrue

theorem Owned.Among.owner_mem {o : Owned} {nodes : List Node} (among : o.Among nodes) :
    o.owner ∈ Graph.regular nodes :=
  mem_regular.2 ⟨among.owner, among.regular⟩

/-- Only the regular nodes count. -/
theorem Owned.Among.of_regular {o : Owned} {nodes nodes' : List Node} (among : o.Among nodes)
    (same : Graph.regular nodes' = Graph.regular nodes) : o.Among nodes' := by
  have member := among.owner_mem
  exact { among with owner := (mem_regular.1 (same ▸ member)).1 }

/-- What a node owns are the decisions of its own functions. -/
theorem mem_ownedBy {n : Node} {os : List Owned} (h : ownedBy n = .ok os) {o : Owned} :
    o ∈ os ↔ o.owner = n ∧ o.Among [n] := by
  unfold ownedBy at h
  split at h
  case isTrue decision =>
    obtain rfl := Except.ok.inj h
    refine ⟨nofun, ?_⟩
    rintro ⟨rfl, among⟩
    exact absurd (decision.symm.trans among.regular) (by decide)
  case isFalse notDecision =>
    obtain ⟨fs, functions, rest⟩ := bind_eq_ok.1 h
    obtain rfl := Except.ok.inj rest
    simp only [List.mem_filterMap]
    constructor
    · rintro ⟨f, member, some⟩
      split at some
      case h_2 => cases some
      case h_1 d decided =>
        split at some
        case isFalse => cases some
        case isTrue named =>
          obtain rfl := Option.some.inj some
          exact ⟨rfl, .head _, by simpa using notDecision, ⟨fs, functions, member⟩, decided, named⟩
    · rintro ⟨rfl, -, -, ⟨gs, same, member⟩, decided, named⟩
      obtain rfl := Except.ok.inj (functions.symm.trans same)
      have named : (o.function.get "name").isTrue := named
      exact ⟨o.function, member, by simp [decided, named]⟩

/-- A decision takes the place of one of its id, or comes last. -/
theorem ids_putOwned (os : List Owned) (o : Owned) :
    (putOwned os o).map (·.id) =
      if o.id ∈ os.map (·.id) then os.map (·.id) else os.map (·.id) ++ [o.id] := by
  induction os with
  | nil => rfl
  | cons p os ih =>
    by_cases same : p.id = o.id
    · simp [putOwned, same]
    · have ne : o.id ≠ p.id := Ne.symm same
      simp only [putOwned, same, if_false, List.map_cons, ih, List.mem_cons, ne, false_or]
      split <;> rfl

theorem mem_putOwned {os : List Owned} {o p : Owned} (h : p ∈ putOwned os o) : p = o ∨ p ∈ os := by
  induction os with
  | nil => exact .inl (by simpa [putOwned] using h)
  | cons q os ih =>
    simp only [putOwned] at h
    split at h
    · simpa [or_comm, or_assoc] using (List.mem_cons.1 h).imp_right (List.mem_cons_of_mem q)
    · rcases List.mem_cons.1 h with rfl | h
      · exact .inr (.head _)
      · exact (ih h).imp_right (List.mem_cons_of_mem q)

/-- One decision is kept for each id. -/
theorem foldl_putOwned (os xs : List Owned) (nodup : (os.map (·.id)).Nodup) :
    ((xs.foldl putOwned os).map (·.id)).Nodup ∧
      (∀ o ∈ xs.foldl putOwned os, o ∈ os ∨ o ∈ xs) ∧
      ∀ id, id ∈ (xs.foldl putOwned os).map (·.id) ↔
        id ∈ os.map (·.id) ∨ id ∈ xs.map (·.id) := by
  induction xs generalizing os with
  | nil => exact ⟨nodup, fun _ h => .inl h, by simp⟩
  | cons x xs ih =>
    have ids := ids_putOwned os x
    have next : ((putOwned os x).map (·.id)).Nodup := by
      rw [ids]
      split
      · exact nodup
      · rename_i fresh
        exact nodup.append (List.nodup_singleton _) (by simpa using fresh)
    obtain ⟨distinct, members, same⟩ := ih _ next
    refine ⟨distinct, fun o h => ?_, fun id => ?_⟩
    · rcases members o h with h | h
      · exact (mem_putOwned h).elim (fun same => .inr (same ▸ .head _)) .inl
      · exact .inr (.tail _ h)
    · rw [List.foldl_cons, same, ids]
      split
      · rename_i there
        simp only [List.map_cons, List.mem_cons]
        constructor
        · tauto
        · rintro (h | rfl | h)
          · exact .inl h
          · exact .inl there
          · exact .inr h
      · simp [or_assoc]

theorem putOwned_of_fresh {os : List Owned} {o : Owned} (fresh : o.id ∉ os.map (·.id)) :
    putOwned os o = os ++ [o] := by
  induction os with
  | nil => rfl
  | cons p os ih =>
    simp only [List.map_cons, List.mem_cons, not_or] at fresh
    simp [putOwned, Ne.symm fresh.1, ih fresh.2]

/-- Where ids differ all decisions are kept in order. -/
theorem foldl_putOwned_of_nodup {os xs : List Owned} (nodup : ((os ++ xs).map (·.id)).Nodup) :
    xs.foldl putOwned os = os ++ xs := by
  induction xs generalizing os with
  | nil => simp
  | cons x xs ih =>
    have fresh : x.id ∉ os.map (·.id) := by
      rw [List.map_append, List.nodup_append'] at nodup
      exact fun there => nodup.2.2 there (by simp)
    have moved : os ++ x :: xs = (os ++ [x]) ++ xs := by simp
    rw [List.foldl_cons, putOwned_of_fresh fresh, ih (moved ▸ nodup), moved]

/-- Every id owned is expected once, and nothing else. -/
theorem expected_spec {nodes : List Node} {os : List Owned} (h : expected nodes = .ok os) :
    (os.map (·.id)).Nodup ∧ (∀ o ∈ os, o.Among nodes) ∧
      ∀ o : Owned, o.Among nodes → o.id ∈ os.map (·.id) := by
  obtain ⟨oss, each, rest⟩ := bind_eq_ok.1 h
  obtain rfl := Except.ok.inj rest
  rw [mapM_eq_ok] at each
  obtain ⟨nodup, members, ids⟩ := foldl_putOwned [] oss.flatten (by simp)
  refine ⟨nodup, fun o member => ?_, fun o among => ?_⟩
  · obtain ⟨os, there, member⟩ := List.mem_flatten.1 ((members o member).resolve_left nofun)
    obtain ⟨n, found, here⟩ := exists_of_mem_right each there
    obtain ⟨rfl, among⟩ := (mem_ownedBy here).1 member
    exact { among with owner := found }
  · obtain ⟨os, there, here⟩ := exists_of_mem_left each among.owner
    have member := (mem_ownedBy here).2 ⟨rfl, { among with owner := .head _ }⟩
    rw [ids]
    exact .inr (List.mem_map_of_mem (List.mem_flatten_of_mem there member))

theorem get_of_mem_summary {o : Owned} {s : Entries} (h : o.summary = .ok s) {key : String}
    {value : Document} (member : (.text key, value) ∈ s) : s.get key = value := by
  obtain ⟨conditions, -, h⟩ := bind_eq_ok.1 h
  obtain rfl := Except.ok.inj h
  simp only [List.mem_cons, Prod.mk.injEq, Scalar.text.injEq, List.not_mem_nil, or_false] at member
  rcases member with ⟨rfl, rfl⟩ | ⟨rfl, rfl⟩ | ⟨rfl, rfl⟩ | ⟨rfl, rfl⟩ | ⟨rfl, rfl⟩ <;>
    simp [Entries.get]

/-! ## What becomes of the nodes there are -/

/-- A decision node shows a summary when it holds it, or nothing in its data differs from it. -/
def Node.Shows (n : Node) (summary : Entries) : Prop := n.data = summary ∨ isStale n summary = false

/-- What becomes of a node, given what becomes of those after it. -/
inductive KeepStep (os : List Owned) (present : List String) (n : Node) (ns : List Node) :
    Reconciled → Prop
  | regular {rest : Reconciled} (run : keepExpected os present ns = .ok rest)
      (notDecision : n.isDecision = false) : KeepStep os present n ns (rest.keep n)
  | removed {rest : Reconciled} (run : keepExpected os present ns = .ok rest)
      (decision : n.isDecision) (unwanted : n.id ∈ present ∨ os.find? (·.id = n.id) = none) :
      KeepStep os present n ns (rest.remove n)
  | kept {rest : Reconciled} (run : keepExpected os (n.id :: present) ns = .ok rest)
      (decision : n.isDecision) (first : n.id ∉ present) {o : Owned}
      (found : os.find? (·.id = n.id) = some o) {s : Entries} (summary : o.summary = .ok s) :
      KeepStep os present n ns
        (if isStale n s then rest.update { n with data := s } else rest.keep n)

/-- One step of the scan keeps, updates or removes a node. -/
theorem keepStep_of_keepExpected {os : List Owned} {present : List String} {n : Node}
    {ns : List Node} {r : Reconciled} (h : keepExpected os present (n :: ns) = .ok r) :
    KeepStep os present n ns r := by
  simp only [keepExpected] at h
  split at h
  case isTrue notDecision =>
    obtain ⟨rest, run, same⟩ := bind_eq_ok.1 h
    obtain rfl := Except.ok.inj same
    exact .regular run (by simpa using notDecision)
  case isFalse decision =>
    have decision : n.isDecision := by simpa using decision
    split at h
    case h_1 unknown =>
      obtain ⟨rest, run, same⟩ := bind_eq_ok.1 h
      obtain rfl := Except.ok.inj same
      exact .removed run decision (.inr unknown)
    case h_2 o found =>
      split at h
      case isTrue again =>
        obtain ⟨rest, run, same⟩ := bind_eq_ok.1 h
        obtain rfl := Except.ok.inj same
        exact .removed run decision (.inl (List.contains_iff_mem.1 again))
      case isFalse first =>
        obtain ⟨s, summary, h⟩ := bind_eq_ok.1 h
        obtain ⟨rest, run, same⟩ := bind_eq_ok.1 h
        obtain rfl := Except.ok.inj same
        exact .kept run decision (by simpa using first) found summary

/-- What is kept of the nodes: the regular ones, and one for each expected id not yet met. -/
structure Kept (os : List Owned) (present : List String) (nodes kept : List Node) : Prop where
  regular : regular kept = Graph.regular nodes
  nodup : (decisionIds kept).Nodup
  ids : ∀ id, id ∈ decisionIds kept ↔
    id ∈ decisionIds nodes ∧ id ∉ present ∧ id ∈ os.map (·.id)
  shows : ∀ d ∈ kept, d.isDecision → ∃ o ∈ os, o.id = d.id ∧ ∃ s, o.summary = .ok s ∧ d.Shows s

namespace Kept

variable {os : List Owned} {present : List String} {n m : Node} {ns kept : List Node}

/-- A regular node is always kept. -/
theorem cons_regular (h : Kept os present ns kept) (notDecision : n.isDecision = false) :
    Kept os present (n :: ns) (n :: kept) where
  regular := by simp [regular_cons, notDecision, h.regular]
  nodup := by simpa [decisionIds_cons, notDecision] using h.nodup
  ids := by simpa [decisionIds_cons, notDecision] using h.ids
  shows := by
    rintro d (_ | ⟨_, member⟩) decision
    · exact absurd (decision.symm.trans notDecision) (by decide)
    · exact h.shows d member decision

/-- A decision node that was met before, or that is not expected, is left out. -/
theorem cons_removed (h : Kept os present ns kept) (decision : n.isDecision)
    (unwanted : n.id ∈ present ∨ n.id ∉ os.map (·.id)) : Kept os present (n :: ns) kept where
  regular := by simpa [regular_cons, decision] using h.regular
  nodup := h.nodup
  ids id := by
    rw [h.ids, decisionIds_cons, if_pos decision, List.mem_cons]
    refine ⟨fun ⟨there, rest⟩ => ⟨.inr there, rest⟩, ?_⟩
    rintro ⟨rfl | there, fresh, wanted⟩
    · exact absurd unwanted (by simp [fresh, wanted])
    · exact ⟨there, fresh, wanted⟩
  shows := h.shows

/-- A decision node met for the first time stays, perhaps with another summary. -/
theorem cons_kept (h : Kept os (n.id :: present) ns kept) (decision : n.isDecision)
    (first : n.id ∉ present) {o : Owned} (member : o ∈ os) (same : o.id = n.id) {s : Entries}
    (summary : o.summary = .ok s) (id : m.id = n.id) (kind : m.isDecision) (shows : m.Shows s) :
    Kept os present (n :: ns) (m :: kept) where
  regular := by simpa [regular_cons, decision, kind] using h.regular
  nodup := by
    rw [decisionIds_cons, if_pos kind, id, List.nodup_cons, h.ids]
    exact ⟨fun there => there.2.1 (.head _), h.nodup⟩
  ids i := by
    rw [decisionIds_cons, decisionIds_cons, if_pos kind, if_pos decision, id, List.mem_cons, h.ids,
      List.mem_cons, List.mem_cons, not_or]
    have wanted : n.id ∈ os.map (·.id) := List.mem_map.2 ⟨o, member, same⟩
    by_cases here : i = n.id
    · simp only [here, true_or, first, wanted, not_false_eq_true, and_self]
    · simp only [here, false_or, not_false_eq_true, true_and]
  shows := by
    rintro d (_ | ⟨_, there⟩) isDecision
    · exact ⟨o, member, same.trans id.symm, s, summary, shows⟩
    · exact h.shows d there isDecision

end Kept

/-- So is what the whole scan keeps. -/
theorem kept_of_keepExpected {os : List Owned} {present : List String} {nodes : List Node}
    {r : Reconciled} (h : keepExpected os present nodes = .ok r) :
    Kept os present nodes r.nodes := by
  -- Each decision node that stays joins those present, so the invariant is about all of these.
  induction nodes generalizing present r with
  | nil =>
    obtain rfl := Except.ok.inj h
    exact ⟨rfl, .nil, by simp [decisionIds], nofun⟩
  | cons n ns ih =>
    cases keepStep_of_keepExpected h with
    | regular run notDecision => exact (ih run).cons_regular notDecision
    | removed run decision unwanted =>
      exact (ih run).cons_removed decision (unwanted.imp_right fun unknown => by simpa using unknown)
    | @kept rest run decision first o found s summary =>
      have member := List.mem_of_find?_eq_some found
      have id : o.id = n.id := by simpa using List.find?_some found
      split
      case isTrue stale =>
        exact (ih run).cons_kept decision first member id summary rfl decision (.inl rfl)
      case isFalse fitting =>
        exact (ih run).cons_kept decision first member id summary rfl decision
          (.inr (by simpa using fitting))

/-! ## Reconciling -/

/-- The nodes that stand for the decisions that have none. -/
theorem node_eq_ok {settings : Settings} {o : Owned} {n : Node} (h : o.node settings = .ok n) :
    n.id = o.id ∧ n.isDecision ∧ o.summary = .ok n.data := by
  obtain ⟨position, -, h⟩ := bind_eq_ok.1 h
  obtain ⟨data, summary, h⟩ := bind_eq_ok.1 h
  obtain rfl := Except.ok.inj h
  exact ⟨rfl, rfl, summary⟩

/-- What is built are decision nodes with the missing ids. -/
theorem built_spec {settings : Settings} {missing : List Owned} {built : List Node}
    (builds : List.Forall₂ (fun o n => o.node settings = .ok n) missing built) :
    regular built = [] ∧ decisionIds built = missing.map (·.id) := by
  induction builds with
  | nil => exact ⟨rfl, rfl⟩
  | cons here _ ih =>
    obtain ⟨id, decision, -⟩ := node_eq_ok here
    simp [regular_cons, decisionIds_cons, decision, id, ih]

theorem isPresent_iff {nodes : List Node} {o : Owned} :
    isPresent nodes o ↔ o.id ∈ decisionIds nodes := by
  simp [isPresent, mem_decisionIds]

/-- What holds of the nodes that reconciling gives. -/
structure Reconciles (nodes result : List Node) : Prop where
  regular : regular result = Graph.regular nodes
  nodup : (decisionIds result).Nodup
  ids : ∀ id, id ∈ decisionIds result ↔ ∃ o : Owned, o.Among nodes ∧ o.id = id
  shows : ∀ d ∈ result, d.isDecision →
    ∃ o : Owned, o.Among nodes ∧ o.id = d.id ∧ ∃ s, o.summary = .ok s ∧ d.Shows s

/-- The nodes that reconciling gives are those that it would give for themselves. -/
theorem Reconciles.self {nodes result : List Node} (h : Reconciles nodes result) :
    Reconciles result result where
  regular := rfl
  nodup := h.nodup
  ids id := by
    rw [h.ids]
    exact ⟨fun ⟨o, among, same⟩ => ⟨o, among.of_regular h.regular, same⟩,
      fun ⟨o, among, same⟩ => ⟨o, among.of_regular h.regular.symm, same⟩⟩
  shows d member decision := by
    obtain ⟨o, among, rest⟩ := h.shows d member decision
    exact ⟨o, among.of_regular h.regular, rest⟩

theorem reconciles_of_reconcile {settings : Settings} {nodes : List Node} {r : Reconciled}
    (h : reconcile settings nodes = .ok r) : Reconciles nodes r.nodes := by
  obtain ⟨os, expected, h⟩ := bind_eq_ok.1 h
  obtain ⟨kept, keeps, h⟩ := bind_eq_ok.1 h
  obtain ⟨built, builds, h⟩ := bind_eq_ok.1 h
  obtain rfl := Except.ok.inj h
  obtain ⟨nodup, among, ids⟩ := expected_spec expected
  have keeps := kept_of_keepExpected keeps
  rw [mapM_eq_ok] at builds
  obtain ⟨none, built_ids⟩ := built_spec builds
  have missing (o : Owned) : o ∈ os.filter (fun o => !isPresent nodes o) ↔
      o ∈ os ∧ o.id ∉ decisionIds nodes := by
    simp [← isPresent_iff]
  refine ⟨?_, ?_, fun id => ?_, fun d member decision => ?_⟩
  · simp only [regular_append, none, List.append_nil, keeps.regular]
  · rw [decisionIds_append, built_ids]
    refine keeps.nodup.append (nodup.sublist (List.filter_sublist.map _)) ?_
    intro id there fresh
    obtain ⟨o, member, rfl⟩ := List.mem_map.1 fresh
    exact ((missing o).1 member).2 ((keeps.ids _).1 there).1
  · rw [decisionIds_append, List.mem_append, keeps.ids, built_ids]
    constructor
    · rintro (⟨-, -, wanted⟩ | wanted)
      · obtain ⟨o, member, rfl⟩ := List.mem_map.1 wanted
        exact ⟨o, among o member, rfl⟩
      · obtain ⟨o, member, rfl⟩ := List.mem_map.1 wanted
        exact ⟨o, among o ((missing o).1 member).1, rfl⟩
    · rintro ⟨o, isAmong, rfl⟩
      have wanted := ids o isAmong
      by_cases there : o.id ∈ decisionIds nodes
      · exact .inl ⟨there, nofun, wanted⟩
      · obtain ⟨p, member, same⟩ := List.mem_map.1 wanted
        exact .inr (List.mem_map.2 ⟨p, (missing p).2 ⟨member, same ▸ there⟩, same⟩)
  · rcases List.mem_append.1 member with member | member
    · obtain ⟨o, expected, rest⟩ := keeps.shows d member decision
      exact ⟨o, among o expected, rest⟩
    · obtain ⟨o, wanted, here⟩ := exists_of_mem_right builds member
      obtain ⟨id, -, summary⟩ := node_eq_ok here
      exact ⟨o, among o ((missing o).1 wanted).1, id.symm, d.data, summary, .inl rfl⟩

/-! ## Without decision nodes -/

/-- Where there are no decision nodes yet, all nodes stay and one is appended for each decision. -/
theorem reconcile_regular {settings : Settings} {nodes : List Node} {os : List Owned}
    (noDecisions : ∀ n ∈ nodes, n.isDecision = false) (expects : expected nodes = .ok os) :
    reconcile settings nodes = (do
      let built ← os.mapM (·.node settings)
      return { nodes := nodes ++ built, created := os.map (·.id) }) := by
  have kept : keepExpected os [] nodes = .ok { nodes := nodes } := by
    clear expects
    induction nodes with
    | nil => rfl
    | cons n ns ih =>
      have rest := ih fun n member => noDecisions n (.tail _ member)
      simp [keepExpected, noDecisions n (.head _), rest, Reconciled.keep]
  have missing : os.filter (fun o => !isPresent nodes o) = os := by
    refine List.filter_eq_self.2 fun o _ => ?_
    have absent : o.id ∉ decisionIds nodes := fun there => by
      obtain ⟨n, member, decision, -⟩ := mem_decisionIds.1 there
      exact absurd (decision.symm.trans (noDecisions n member)) (by decide)
    simpa [← isPresent_iff] using absent
  simp only [reconcile, expects, kept, missing, ok_bind, pure_eq_ok]

/-- Without decision nodes all that are expected are built, and the rest is left alone. -/
theorem reconcile_of_regular {settings : Settings} {nodes : List Node} {os : List Owned}
    {built : List Node} (noDecisions : ∀ n ∈ nodes, n.isDecision = false)
    (expects : expected nodes = .ok os) (builds : os.mapM (·.node settings) = .ok built) :
    ∃ r, reconcile settings nodes = .ok r ∧ r.nodes = nodes ++ built :=
  ⟨_, by rw [reconcile_regular noDecisions expects, builds]; rfl, rfl⟩

end Dialogue.Graph
