import Dialogue.Proofs.Edit.Copying
import Dialogue.Proofs.Graph.Decisions
import Dialogue.Proofs.Graph.Dragging
import Dialogue.Proofs.Graph.Routes

/-!
# Edits keep graphs tidy

In a tidy graph the ids of the regular nodes differ and hold no hyphen, and each of these nodes has
the role that its data show. Every edit that succeeds keeps a graph tidy.
-/

namespace Dialogue.Edit

open Dialogue.Graph (Node regular)

/-- What edits preserve of the regular nodes: ids apart and without hyphens, roles derived. -/
structure Tidy (nodes : List Node) : Prop where
  nodup : ((regular nodes).map (·.id)).Nodup
  free : ∀ n ∈ regular nodes, Identifier.HyphenFree n.id
  roles : ∀ n ∈ regular nodes, ∃ role, Role.derive (.map n.data) = .ok role ∧ n.kind = role.name

/-- A node changed in place: under its id, of its sort, with its role derived if it was before. -/
structure Keeps (n m : Node) : Prop where
  id : m.id = n.id
  sort : m.isDecision = n.isDecision
  role : (∃ role, Role.derive (.map n.data) = .ok role ∧ n.kind = role.name) →
    ∃ role, Role.derive (.map m.data) = .ok role ∧ m.kind = role.name

theorem Keeps.refl (n : Node) : Keeps n n := ⟨rfl, rfl, fun h => h⟩

/-- An edit that keeps every node keeps which ones are regular. -/
theorem regular_of_keeps {nodes nodes' : List Node} (kept : List.Forall₂ Keeps nodes nodes') :
    List.Forall₂ Keeps (regular nodes) (regular nodes') := by
  induction kept with
  | nil => exact .nil
  | @cons n m ns ms here _ ih =>
    rw [Graph.regular_cons, Graph.regular_cons, here.sort]
    split
    · exact ih
    · exact .cons here ih

/-- A canvas stays tidy where every node is kept. -/
theorem Tidy.of_keeps {nodes nodes' : List Node} (tidy : Tidy nodes)
    (kept : List.Forall₂ Keeps nodes nodes') : Tidy nodes' := by
  have kept := regular_of_keeps kept
  have ids : (regular nodes).map (·.id) = (regular nodes').map (·.id) :=
    map_of_forall₂ kept fun _ _ h => h.id.symm
  refine ⟨ids ▸ tidy.nodup, fun m member => ?_, fun m member => ?_⟩
  · obtain ⟨n, there, h⟩ := exists_of_mem_right kept member
    rw [h.id]
    exact tidy.free n there
  · obtain ⟨n, there, h⟩ := exists_of_mem_right kept member
    exact h.role (tidy.roles n there)

/-! ## Changes in place -/

/-- Functions have no say in the role of a node. -/
theorem derive_put_functions (es : Entries) (d : Document) :
    Role.derive (.map (es.put "functions" d)) = Role.derive (.map es) := by
  simp [Role.derive, Entries.get_put]

/-- The functions say nothing of the role. -/
theorem keeps_put_functions (n : Node) (d : Document) :
    Keeps n { n with data := n.data.put "functions" d } :=
  ⟨rfl, rfl, by rw [derive_put_functions]; exact id⟩

theorem keeps_updateNode {updates : Document} {n m : Node} (notDecision : n.isDecision = false)
    (h : updateNode updates n = .ok m) : Keeps n m := by
  obtain ⟨es, -, h⟩ := bind_eq_ok.1 h
  obtain ⟨role, derived, h⟩ := bind_eq_ok.1 h
  obtain rfl := Except.ok.inj h
  refine ⟨rfl, ?_, fun _ => ⟨role, derived, rfl⟩⟩
  rw [notDecision]
  exact Graph.isDecision_of_role role rfl

/-- New data for a node leave its id alone, and its role follows the data. -/
theorem keeps_updateData {id : String} {updates : Document} {nodes nodes' : List Node}
    (h : updateData id updates nodes = .ok nodes') : List.Forall₂ Keeps nodes nodes' := by
  obtain ⟨-, -, h⟩ := bind_eq_ok.1 h
  refine (mapM_eq_ok.1 (lift_eq_ok.1 h)).imp fun n m h => ?_
  split at h
  case isTrue own =>
    simp only [isOwn, Bool.and_eq_true, Bool.not_eq_true'] at own
    exact keeps_updateNode own.2 h
  case isFalse =>
    obtain rfl := Except.ok.inj h
    exact .refl n

/-- So does a change of one function. -/
theorem keeps_withFunction {change : Document → Loose Document} {id : String} {index : Int}
    {nodes nodes' : List Node} (h : withFunction change id index nodes = .ok nodes') :
    List.Forall₂ Keeps nodes nodes' := by
  refine (mapM_eq_ok.1 h).imp fun n m h => ?_
  simp only [changeFunction] at h
  split at h
  case isFalse =>
    obtain rfl := Except.ok.inj h
    exact .refl n
  case isTrue =>
    obtain ⟨elements, -, h⟩ := bind_eq_ok.1 h
    split at h
    case isFalse =>
      obtain rfl := Except.ok.inj h
      exact .refl n
    case isTrue =>
      obtain ⟨functions, -, h⟩ := bind_eq_ok.1 h
      obtain rfl := Except.ok.inj h
      exact keeps_put_functions n functions

/-- At most the functions of a node are rewritten. -/
theorem retargetNode_eq_ok {r : Renaming} {n m : Node} (h : retargetNode r n = .ok m) :
    m = n ∨ ∃ functions, m = { n with data := n.data.put "functions" functions } := by
  simp only [retargetNode] at h
  split at h
  case isFalse => exact .inl (Except.ok.inj h).symm
  case isTrue =>
    obtain ⟨count, -, h⟩ := bind_eq_ok.1 h
    split at h
    case isTrue => exact .inl (Except.ok.inj h).symm
    case isFalse =>
      obtain ⟨functions, -, h⟩ := bind_eq_ok.1 h
      exact .inr ⟨functions, (Except.ok.inj h).symm⟩

theorem keeps_retargetNode {r : Renaming} {n m : Node} (h : retargetNode r n = .ok m) :
    Keeps n m := by
  obtain rfl | ⟨functions, rfl⟩ := retargetNode_eq_ok h
  · exact .refl m
  · exact keeps_put_functions n functions

theorem keeps_retargetNodes {r : Renaming} {nodes nodes' : List Node}
    (h : retargetNodes r nodes = .ok nodes') : List.Forall₂ Keeps nodes nodes' :=
  (mapM_eq_ok.1 h).imp fun _ _ h => keeps_retargetNode h

/-- A placed decision leaves its owner with other functions at most. -/
theorem keeps_placedData (s : Graph.Source) (p : Position) :
    Keeps s.owner { s.owner with data := s.placedData p } := by
  unfold Graph.Source.placedData
  split
  · exact keeps_put_functions s.owner _
  · exact .refl s.owner

/-- On a tidy canvas an id names one regular node. -/
theorem Tidy.eq_of_id {nodes : List Node} (tidy : Tidy nodes) {n m : Node} (hn : n ∈ regular nodes)
    (hm : m ∈ regular nodes) (same : n.id = m.id) : n = m :=
  List.inj_on_of_nodup_map tidy.nodup hn hm same

/-- A decision found belongs to a regular node. -/
theorem owner_of_requireSource {id : String} {nodes : List Node} {s : Graph.Source}
    (h : Graph.requireSource id nodes = .ok s) : s.owner ∈ regular nodes := by
  obtain ⟨l⟩ := Graph.exists_place (Graph.requireSource_eq_ok.1 h)
  exact Graph.mem_regular.2 ⟨List.mem_of_getElem? l.owner_at, l.regular⟩

/-- Dragging a decision keeps every node. -/
theorem keeps_drag {id : String} {position : Document} {nodes nodes' : List Node}
    (tidy : Tidy nodes) (h : Graph.drag id position nodes = .ok nodes') :
    List.Forall₂ Keeps nodes nodes' := by
  obtain ⟨source, found, h⟩ := bind_eq_ok.1 h
  obtain ⟨p, -, h⟩ := bind_eq_ok.1 h
  obtain rfl := Except.ok.inj h
  refine List.forall₂_map_right_iff.2 (List.forall₂_same.2 fun n member => ?_)
  split
  case isTrue own =>
    simp only [Bool.and_eq_true, decide_eq_true_eq, Bool.not_eq_true'] at own
    have same : n = source.owner :=
      tidy.eq_of_id (Graph.mem_regular.2 ⟨member, own.2⟩) (owner_of_requireSource found) own.1
    exact same ▸ keeps_placedData source p
  case isFalse =>
    split
    · exact ⟨rfl, rfl, fun role => role⟩
    · exact .refl n

/-! ## Renamed, removed and added nodes -/

theorem renamed_of_regular {r : Renaming} {names : List Document} {n : Node}
    (notDecision : n.isDecision = false) :
    renamed r names n = if n.id = r.old then { n with id := r.new } else n := by
  simp [renamed, notDecision]

/-- A renamed node is where it was and as selected as it was. -/
theorem renamed_eq (r : Renaming) (names : List Document) (n : Node) :
    renamed r names n =
      { n with id := (renamed r names n).id, data := (renamed r names n).data } := by
  unfold renamed
  split
  · split <;> rfl
  · split <;> rfl

/-- A rename makes no node a decision and no decision a node. -/
theorem isDecision_renamed (r : Renaming) (names : List Document) (n : Node) :
    (renamed r names n).isDecision = n.isDecision := by
  rw [renamed_eq]
  rfl

theorem regular_map_renamed (r : Renaming) (names : List Document) (nodes : List Node) :
    regular (nodes.map (renamed r names)) = (regular nodes).map (renamed r names) := by
  simp only [regular, List.filter_map, Function.comp_def, isDecision_renamed]

/-- The decision nodes of the renamed node follow it. -/
theorem ownedId?_own {r : Renaming} (free : Identifier.HyphenFree r.old) {names : List String}
    {name : String} (member : name ∈ names) :
    ownedId? r (names.map .text) (Identifier.decisionId r.old name) =
      some (Identifier.decisionId r.new name) := by
  have found : (names.map Document.text).find?
      (fun n => Graph.decisionIdOf r.old n = Identifier.decisionId r.old name) =
      some (.text name) := by
    refine Graph.find?_of_unique (List.mem_map_of_mem member) (by simp) fun d there same => ?_
    obtain ⟨other, -, rfl⟩ := List.mem_map.1 there
    have same : Identifier.decisionId r.old other = Identifier.decisionId r.old name := by
      simpa using same
    rw [(Identifier.decisionId_inj free free same).2]
  simp [ownedId?, found]

/-- An id that no function of the renamed node gives is not rewritten. -/
theorem ownedId?_eq_none {r : Renaming} {names : List String} {id : String}
    (others : ∀ name ∈ names, id ≠ Identifier.decisionId r.old name) :
    ownedId? r (names.map .text) id = none := by
  have none : (names.map Document.text).find? (fun n => Graph.decisionIdOf r.old n = id) =
      none := by
    rw [List.find?_eq_none, List.forall_mem_map]
    intro name member same
    exact others name member (by simpa using Eq.symm (of_decide_eq_true same))
  simp [ownedId?, none]

/-- Those of other nodes, and of functions that are not among these, keep their ids. -/
theorem ownedId?_other {r : Renaming} (free : Identifier.HyphenFree r.old) {owner name : String}
    (ownerFree : Identifier.HyphenFree owner) {names : List String}
    (other : owner = r.old → name ∉ names) :
    ownedId? r (names.map .text) (Identifier.decisionId owner name) = none := by
  refine ownedId?_eq_none fun called member same => ?_
  obtain ⟨own, rfl⟩ := Identifier.decisionId_inj ownerFree free same
  exact other own member

/-- A tidy canvas stays tidy under a rename to an id that is free. -/
theorem Tidy.map_renamed {r : Renaming} {names : List Document} {nodes : List Node}
    (tidy : Tidy nodes) (free : Identifier.HyphenFree r.new)
    (fresh : ∀ n ∈ regular nodes, n.id = r.new → n.id = r.old) :
    Tidy (nodes.map (renamed r names)) := by
  have shape : (regular nodes).map (renamed r names) =
      (regular nodes).map fun n => if n.id = r.old then { n with id := r.new } else n :=
    List.map_congr_left fun n member => renamed_of_regular (Graph.mem_regular.1 member).2
  have regulars := (regular_map_renamed r names nodes).trans shape
  constructor
  · rw [regulars, List.map_map]
    -- Only the old node can have the new id, so equal ids were equal before.
    refine tidy.nodup.of_map.map_on fun n hn m hm same => tidy.eq_of_id hn hm ?_
    have fresh_n := fresh n hn
    have fresh_m := fresh m hm
    grind
  · rw [regulars, List.forall_mem_map]
    intro n member
    split
    · exact free
    · exact tidy.free n member
  · rw [regulars, List.forall_mem_map]
    intro n member
    split <;> exact tidy.roles n member

theorem Tidy.of_sublist {nodes nodes' : List Node} (tidy : Tidy nodes)
    (sublist : nodes'.Sublist nodes) : Tidy nodes' := by
  have sublist : (regular nodes').Sublist (regular nodes) := sublist.filter _
  exact ⟨tidy.nodup.sublist (sublist.map _), fun n member => tidy.free n (sublist.mem member),
    fun n member => tidy.roles n (sublist.mem member)⟩

/-- A fresh node may join a tidy canvas. -/
theorem Tidy.append {nodes : List Node} (tidy : Tidy nodes) {n : Node}
    (fresh : n.id ∉ nodes.map (·.id)) (free : Identifier.HyphenFree n.id)
    (role : ∃ role, Role.derive (.map n.data) = .ok role ∧ n.kind = role.name) :
    Tidy (nodes ++ [n]) := by
  have notDecision : n.isDecision = false := by
    obtain ⟨role, -, kind⟩ := role
    exact Graph.isDecision_of_role role kind
  have last : regular (nodes ++ [n]) = regular nodes ++ [n] := by
    simp [Graph.regular, notDecision]
  constructor
  · rw [last, List.map_append]
    refine tidy.nodup.append (List.nodup_singleton _) ?_
    simp only [List.map_cons, List.map_nil, List.disjoint_singleton]
    exact fun there => fresh ((List.filter_sublist.map _).mem there)
  · rw [last, List.forall_mem_append]
    exact ⟨tidy.free, by simpa using free⟩
  · rw [last, List.forall_mem_append]
    exact ⟨tidy.roles, by simpa using role⟩

/-! ## Edits that move ids -/

/-- What a rename does when it succeeds: nothing, or the references are renamed first and then the
nodes, to an id that no other node has. -/
theorem stages_of_renameNode {settings : Settings} {r : Renaming} {nodes nodes' : List Node}
    (h : renameNode settings r nodes = .ok nodes') :
    ∃ n, nodes.find? (·.id = r.old) = some n ∧ n.isDecision = false ∧
      (r.new = r.old ∧ nodes' = nodes ∨ ∃ final names ms, Identifier.HyphenFree final ∧
        (∀ m ∈ nodes, m.id = final → m.id = r.old) ∧ decidingNames n = .ok names ∧
        retargetNodes { r with new := final } nodes = .ok ms ∧
        nodes' = ms.map (renamed { r with new := final } names)) := by
  obtain ⟨n, own, h⟩ := bind_eq_ok.1 h
  obtain ⟨m, found, own⟩ := bind_eq_ok.1 own
  split at own
  case isTrue => cases own
  case isFalse notDecision =>
    obtain rfl := Except.ok.inj own
    refine ⟨m, ?_, by simpa using notDecision, ?_⟩
    · unfold findNode at found
      split at found
      case h_1 first => rw [first, Except.ok.inj found]
      case h_2 => cases found
    split at h
    case isTrue same => exact .inl ⟨same, (Except.ok.inj h).symm⟩
    case isFalse =>
      split at h
      case isTrue => cases h
      case isFalse identifier =>
        obtain ⟨final, free, h⟩ := bind_eq_ok.1 h
        obtain ⟨names, deciding, h⟩ := bind_eq_ok.1 h
        obtain ⟨ms, run, h⟩ := bind_eq_ok.1 h
        refine .inr ⟨final, names, ms, Identifier.hyphenFree_disambiguate free
          (Identifier.hyphenFree_of_isIdentifier (by simpa using identifier)), ?_,
          lift_eq_ok.1 deciding, lift_eq_ok.1 run, (Except.ok.inj h).symm⟩
        rintro k there rfl
        by_contra other
        exact (Identifier.disambiguate_eq_ok free).1
          (List.mem_filter.2 ⟨List.mem_map_of_mem there, by simpa using other⟩)

/-- Renaming keeps the canvas tidy. -/
theorem tidy_renameNode {settings : Settings} {r : Renaming} {nodes nodes' : List Node}
    (tidy : Tidy nodes) (h : renameNode settings r nodes = .ok nodes') : Tidy nodes' := by
  obtain ⟨-, -, -, ⟨-, rfl⟩ | ⟨final, names, ms, free, fresh, -, run, rfl⟩⟩ :=
    stages_of_renameNode h
  · exact tidy
  · have kept := keeps_retargetNodes run
    refine (tidy.of_keeps kept).map_renamed free fun m member same => ?_
    obtain ⟨n, there, keeps⟩ := exists_of_mem_right kept (Graph.mem_regular.1 member).1
    rw [keeps.id] at same ⊢
    exact fresh n there same

/-- So does deleting, which leaves a part of the canvas. -/
theorem tidy_deleteNode {id : String} {nodes nodes' : List Node} (tidy : Tidy nodes)
    (h : deleteNode id nodes = .ok nodes') : Tidy nodes' := by
  obtain ⟨-, -, h⟩ := bind_eq_ok.1 h
  obtain rfl := Except.ok.inj h
  exact tidy.of_sublist List.filter_sublist

/-- So does adding a duplicate. -/
theorem tidy_duplicateNode {settings : Settings} {n copy : Node} {nodes : List Node}
    (tidy : Tidy nodes) (h : duplicateNode settings n nodes = .ok copy) :
    Tidy (nodes ++ [copy]) := by
  have own := isCopy_of_duplicateNode h
  obtain ⟨role, derived, kind, -⟩ := own.kind
  apply tidy.append own.fresh
  · exact Identifier.hyphenFree_of_isIdentifier (Identifier.isIdentifier_iff.2 (.inl own.name))
  · exact ⟨role, derived, kind⟩

end Dialogue.Edit
