import Dialogue.Proofs.Edit.Retargeting
import Mathlib.Data.Set.List

/-!
# Decision nodes move with their owner

When a node of a calm graph is renamed, its decision nodes get the ids that its decisions call for
under the new id, and stay where they are. Only decisions without entries are passed over: their
decision nodes keep the old id, so the next reconciling takes them away and makes others.
-/

namespace Dialogue.Edit

open Dialogue.Graph (Node Owned regular callsOf callIds decisionIds Calm)

/-! ## Which decision nodes follow -/

/-- Graphs whose decisions have ids of their own: no two regular nodes share an id, no id holds a
hyphen, and every function has a name. -/
structure Addressed (nodes : List Node) : Prop where
  nodup : ((regular nodes).map (·.id)).Nodup
  free : ∀ n ∈ regular nodes, Identifier.HyphenFree n.id
  named : ∀ n ∈ regular nodes, ∀ fs, n.functions = .ok fs → ∀ f ∈ fs,
    ∃ name, f.get "name" = .text name ∧ name ≠ ""

/-- Under the name stands a decision that counts as true. -/
def Counts (fs : List Entries) (name : String) : Prop :=
  ∃ f ∈ fs, f.get "name" = .text name ∧ (f.get "decision").isTrue

/-- Under the name stand only decisions without entries. -/
def Bare (fs : List Entries) (name : String) : Prop :=
  (∃ f ∈ fs, f.get "name" = .text name ∧ (f.get "decision").isMap) ∧ ¬ Counts fs name

/-- The node `n` of a graph, with the functions `fs`, gets an id that no other node has. -/
structure Renamable (r : Renaming) (nodes : List Node) (n : Node) (fs : List Entries) : Prop
    extends Addressed nodes where
  member : n ∈ regular nodes
  old : n.id = r.old
  functions : n.functions = .ok fs
  fresh : ∀ m ∈ regular nodes, m.id = r.new → m.id = r.old
  new_free : Identifier.HyphenFree r.new

namespace Renamable

variable {r : Renaming} {nodes : List Node} {n : Node} {fs : List Entries} {o p : Owned}

/-- Functions on the canvas are called by texts. -/
theorem exists_name (h : Renamable r nodes n fs) (among : o.Among nodes) :
    ∃ name, o.name = .text name := by
  obtain ⟨gs, functions, called⟩ := among.function
  obtain ⟨name, named, -⟩ :=
    h.named o.owner among.owner_mem gs functions _ called
  exact ⟨name, named⟩

theorem ownerFree (h : Renamable r nodes n fs) (among : o.Among nodes) :
    Identifier.HyphenFree o.owner.id :=
  h.free _ among.owner_mem

/-- The renamed node is the only one of its id. -/
theorem owner_eq (h : Renamable r nodes n fs) (among : o.Among nodes)
    (old : o.owner.id = r.old) : o.owner = n :=
  List.inj_on_of_nodup_map h.nodup among.owner_mem h.member (old.trans h.old.symm)

theorem oldFree (h : Renamable r nodes n fs) : Identifier.HyphenFree r.old :=
  h.old ▸ h.free n h.member

/-- A rename leaves ids free of hyphens. -/
theorem idFree (h : Renamable r nodes n fs) (among : o.Among nodes) :
    Identifier.HyphenFree (r.id o.owner.id) := by
  unfold Renaming.id
  split
  · exact h.new_free
  · exact h.ownerFree among

/-- Owners keep apart. -/
theorem id_inj (h : Renamable r nodes n fs) (ho : o.Among nodes) (hp : p.Among nodes) :
    r.id o.owner.id = r.id p.owner.id ↔ o.owner.id = p.owner.id := by
  have fresh_o := h.fresh _ ho.owner_mem
  have fresh_p := h.fresh _ hp.owner_mem
  unfold Renaming.id
  grind

end Renamable

/-- The id that a decision calls for once its owner may have another. -/
def movedId (r : Renaming) (o : Owned) : String :=
  Graph.decisionIdOf (r.id o.owner.id) o.name

theorem Moved.id {r : Renaming} {o o' : Owned} (moved : Moved r o o') : o'.id = movedId r o := by
  rw [Owned.id, moved.owner, moved.name, movedId]

/-- The id of a decision node after a rename. -/
def rekey (r : Renaming) (names : List Document) (id : String) : String :=
  (ownedId? r names id).getD id

/-- Decisions whose node does not follow. -/
def Left (r : Renaming) (fs : List Entries) (o : Owned) : Prop :=
  r.new ≠ r.old ∧ o.owner.id = r.old ∧ ∃ name, o.name = .text name ∧ ¬ Counts fs name

namespace Renamable

variable {r : Renaming} {nodes : List Node} {n : Node} {fs : List Entries} {o p : Owned}
  {names : List Document}

/-- Decisions with ids of their own keep ids of their own. -/
theorem movedId_inj (h : Renamable r nodes n fs) (ho : o.Among nodes) (hp : p.Among nodes) :
    movedId r o = movedId r p ↔ o.id = p.id := by
  constructor
  · intro same
    obtain ⟨owners, functions⟩ := Identifier.decisionId_inj (h.idFree ho) (h.idFree hp) same
    rw [Owned.id, Owned.id, Graph.decisionIdOf, Graph.decisionIdOf, (h.id_inj ho hp).1 owners,
      functions]
  · intro same
    obtain ⟨owners, functions⟩ := Identifier.decisionId_inj (h.ownerFree ho) (h.ownerFree hp) same
    rw [movedId, movedId, Graph.decisionIdOf, Graph.decisionIdOf, owners, functions]

/-- Decisions of one id are left behind together. -/
theorem left_of_id (h : Renamable r nodes n fs) (ho : o.Among nodes) (hp : p.Among nodes)
    (same : o.id = p.id) (left : Left r fs o) : Left r fs p := by
  obtain ⟨ne, old, name, named, bare⟩ := left
  obtain ⟨other, named'⟩ := h.exists_name hp
  obtain ⟨owners, functions⟩ := Identifier.decisionId_inj (h.ownerFree ho) (h.ownerFree hp) same
  rw [named, named'] at functions
  exact ⟨ne, owners ▸ old, name, by simpa [named'] using functions.symm, bare⟩

/-- The old id of a decision is no longer called for. -/
theorem movedId_ne_of_left (h : Renamable r nodes n fs) (ho : o.Among nodes) (hp : p.Among nodes)
    (left : Left r fs o) : movedId r p ≠ o.id := by
  intro same
  obtain ⟨owners, -⟩ := Identifier.decisionId_inj (h.idFree hp) (h.ownerFree ho) same
  obtain ⟨ne, old, -⟩ := left
  unfold Renaming.id at owners
  grind

/-! ### New ids of decision nodes -/

/-- The names collected are those of the functions whose decision counts. -/
theorem exists_names (h : Renamable r nodes n fs) (deciding : decidingNames n = .ok names) :
    ∃ called : List String, names = called.map .text ∧ ∀ name, name ∈ called ↔ Counts fs name := by
  rw [decidingNames, h.functions, ok_bind] at deciding
  have given := Except.ok.inj deciding
  have texts : ∀ d ∈ names, d ∈ Set.range Document.text := by
    intro d member
    rw [← given] at member
    obtain ⟨f, there, rfl⟩ := List.mem_map.1 member
    obtain ⟨name, named, -⟩ :=
      h.named n h.member fs h.functions f (List.mem_filter.1 there).1
    exact ⟨name, named.symm⟩
  obtain ⟨called, rfl⟩ : names ∈ Set.range (List.map Document.text) := by
    rw [Set.range_list_map]
    exact texts
  refine ⟨called, rfl, fun name => ?_⟩
  have member : name ∈ called ↔ .text name ∈ called.map Document.text := by simp
  rw [member, ← given, List.mem_map]
  simp only [List.mem_filter, Counts]
  grind

/-- An id is rewritten only if it belongs to the renamed node. -/
theorem old_of_ownedId? (h : Renamable r nodes n fs) (deciding : decidingNames n = .ok names)
    (among : o.Among nodes) {id : String} (given : ownedId? r names o.id = some id) :
    o.owner.id = r.old := by
  obtain ⟨called, rfl, -⟩ := h.exists_names deciding
  obtain ⟨name, named⟩ := h.exists_name among
  by_contra other
  rw [Owned.id, named, Graph.decisionIdOf_text,
    ownedId?_other h.oldFree (h.ownerFree among) fun old => absurd old other] at given
  cases given

/-- The id of a decision that is left behind stays. -/
theorem rekey_of_left (h : Renamable r nodes n fs) (deciding : decidingNames n = .ok names)
    (among : o.Among nodes) (left : Left r fs o) : rekey r names o.id = o.id := by
  obtain ⟨-, -, name, named, bare⟩ := left
  obtain ⟨called, rfl, counts⟩ := h.exists_names deciding
  have id : o.id = Identifier.decisionId o.owner.id name := by
    rw [Owned.id, named, Graph.decisionIdOf_text]
  rw [rekey, id, ownedId?_other h.oldFree (h.ownerFree among) fun _ => mt (counts name).1 bare]
  rfl

/-- The id of any other decision goes along with its owner. -/
theorem rekey_of_moved (h : Renamable r nodes n fs) (deciding : decidingNames n = .ok names)
    (among : o.Among nodes) (moves : ¬ Left r fs o) : rekey r names o.id = movedId r o := by
  obtain ⟨called, rfl, counts⟩ := h.exists_names deciding
  obtain ⟨name, named⟩ := h.exists_name among
  have id : o.id = Identifier.decisionId o.owner.id name := by
    rw [Owned.id, named, Graph.decisionIdOf_text]
  have moved : movedId r o = Identifier.decisionId (r.id o.owner.id) name := by
    rw [movedId, named, Graph.decisionIdOf_text]
  by_cases own : o.owner.id = r.old ∧ Counts fs name
  · rw [rekey, id, moved, own.1, ownedId?_own h.oldFree ((counts name).2 own.2), Renaming.id,
      if_pos rfl]
    rfl
  · have kept : r.id o.owner.id = o.owner.id := by
      unfold Renaming.id Left at *
      grind
    rw [rekey, id, moved, kept, ownedId?_other h.oldFree (h.ownerFree among) fun old member =>
      own ⟨old, (counts name).1 member⟩]
    rfl

/-- The rewriting brings no two ids together. -/
theorem rekey_inj (h : Renamable r nodes n fs) (deciding : decidingNames n = .ok names)
    (ho : o.Among nodes) (hp : p.Among nodes) :
    rekey r names o.id = rekey r names p.id ↔ o.id = p.id := by
  refine ⟨fun same => ?_, fun same => by rw [same]⟩
  by_cases leftO : Left r fs o <;> by_cases leftP : Left r fs p
  · rwa [h.rekey_of_left deciding ho leftO, h.rekey_of_left deciding hp leftP] at same
  · rw [h.rekey_of_left deciding ho leftO, h.rekey_of_moved deciding hp leftP] at same
    exact absurd same.symm (h.movedId_ne_of_left ho hp leftO)
  · rw [h.rekey_of_moved deciding ho leftO, h.rekey_of_left deciding hp leftP] at same
    exact absurd same (h.movedId_ne_of_left hp ho leftP)
  · rw [h.rekey_of_moved deciding ho leftO, h.rekey_of_moved deciding hp leftP] at same
    exact (h.movedId_inj ho hp).1 same

/-- No node has the new id of a decision that is left. -/
theorem rekey_ne_of_left (h : Renamable r nodes n fs) (deciding : decidingNames n = .ok names)
    (ho : o.Among nodes) (hp : p.Among nodes) (left : Left r fs o) :
    rekey r names p.id ≠ movedId r o := by
  intro same
  by_cases leftP : Left r fs p
  · rw [h.rekey_of_left deciding hp leftP] at same
    exact h.movedId_ne_of_left hp ho leftP same.symm
  · rw [h.rekey_of_moved deciding hp leftP, h.movedId_inj hp ho] at same
    exact leftP (h.left_of_id ho hp same.symm left)

/-- A decision that is left has no entries. -/
theorem decision_of_left (h : Renamable r nodes n fs) (among : o.Among nodes)
    (left : Left r fs o) : o.decision = [] := by
  obtain ⟨-, old, name, named, bare⟩ := left
  obtain ⟨gs, functions, member⟩ := among.function
  rw [h.owner_eq among old, h.functions] at functions
  obtain rfl := Except.ok.inj functions
  by_contra entries
  refine bare ⟨o.function, member, named, ?_⟩
  simpa [among.decision, Document.isTrue] using entries

/-- What is left are the bare decisions of the renamed node. -/
theorem exists_left_iff (h : Renamable r nodes n fs) {name : String} :
    (∃ o : Owned, o.Among nodes ∧ Left r fs o ∧ o.name = .text name) ↔
      r.new ≠ r.old ∧ Bare fs name := by
  constructor
  · rintro ⟨o, among, ⟨ne, old, other, named, bare⟩, called⟩
    obtain rfl : other = name := by simpa using named.symm.trans called
    have owner := h.owner_eq among old
    obtain ⟨gs, functions, member⟩ := among.function
    rw [owner, h.functions] at functions
    obtain rfl := Except.ok.inj functions
    exact ⟨ne, ⟨o.function, member, named, by rw [among.decision]; rfl⟩, bare⟩
  · rintro ⟨ne, ⟨f, member, named, isMap⟩, bare⟩
    obtain ⟨d, decision⟩ := Document.exists_of_isMap isMap
    obtain ⟨there, notDecision⟩ := Graph.mem_regular.1 h.member
    obtain ⟨name', named', nonempty⟩ := h.named n h.member fs h.functions f member
    refine ⟨⟨n, f, d⟩, ⟨there, notDecision, ⟨fs, h.functions, member⟩, decision, ?_⟩,
      ⟨ne, h.old, name, named, bare⟩, named⟩
    simp [Owned.name, named', Document.isTrue, nonempty]

end Renamable

/-! ## The renamed graph -/

theorem retargetNode_of_isDecision {r : Renaming} {n : Node} (decision : n.isDecision) :
    retargetNode r n = .ok n := by
  simp [retargetNode, decision]

theorem id_renamed {r : Renaming} {names : List Document} {n : Node} (decision : n.isDecision) :
    (renamed r names n).id = rekey r names n.id := by
  simp only [renamed, decision, Bool.not_true, Bool.false_eq_true, if_false, rekey]
  split <;> simp_all

/-- The decision nodes are given the rewritten ids, in place. -/
theorem decisionIds_renamed {r : Renaming} (names : List Document) {nodes ms : List Node}
    (runs : List.Forall₂ (fun n m => retargetNode r n = .ok m) nodes ms) :
    decisionIds (ms.map (renamed r names)) = (decisionIds nodes).map (rekey r names) := by
  induction runs with
  | nil => rfl
  | @cons n m ns ms here _ ih =>
    rw [List.map_cons, Graph.decisionIds_cons, Graph.decisionIds_cons, isDecision_renamed,
      (keeps_retargetNode here).sort, ih]
    cases decision : n.isDecision with
    | false => rfl
    | true =>
      obtain rfl := Except.ok.inj ((retargetNode_of_isDecision decision).symm.trans here)
      simp [id_renamed decision]

/-- A summary names its owner already. -/
theorem put_owner {o : Owned} {s : Entries} (summary : o.summary = .ok s) :
    s.put "source_node_id" (.text o.owner.id) = s := by
  obtain ⟨conditions, -, h⟩ := bind_eq_ok.1 summary
  obtain rfl := Except.ok.inj h
  simp [Entries.put]

/-- Where only the owner changes, a node that is up to date is so with the new owner. -/
theorem isStale_put_owner {o o' : Owned} {s : Entries} (summary : o.summary = .ok s) {id : String}
    (summary' : o'.summary = .ok (s.put "source_node_id" (.text id))) {x m : Node}
    (data : m.data = x.data.put "source_node_id" (.text id))
    (current : Graph.isStale x s = false) :
    Graph.isStale m (s.put "source_node_id" (.text id)) = false := by
  rw [Graph.isStale_eq_false_iff summary] at current
  refine (Graph.isStale_eq_false_iff summary').2 fun key member => ?_
  rw [data, Entries.get_put, Entries.get_put]
  split
  · simp [Document.alike]
  · exact current key member

namespace Renamable

variable {r : Renaming} {nodes ms : List Node} {n : Node} {fs : List Entries}
  {names : List Document} {calls calls' : List Owned}

/-- Each decision and what it is once ids are renamed. -/
def Follow (r : Renaming) (nodes : List Node) (calls calls' : List Owned) : Prop :=
  List.Forall₂ (fun o o' => o.Among nodes ∧ Moved r o o') calls calls'

/-- After the rename the functions still own decisions, which follow their owners. -/
theorem exists_calls (calm : Calm calls nodes)
    (runs : List.Forall₂ (fun n m => retargetNode r n = .ok m) nodes ms) (names : List Document) :
    ∃ calls', callsOf (ms.map (renamed r names)) = .ok calls' ∧ Follow r nodes calls calls' := by
  have each : List.Forall₂ (Graph.CallsBy (Moved r)) nodes (ms.map (renamed r names)) :=
    List.forall₂_map_right_iff.2 (runs.imp fun _ _ run => callsBy_moved run)
  obtain ⟨calls', calling, related⟩ := Graph.callsOf_of_forall₂ each calm.calling
  exact ⟨calls', calling, (List.forall₂_and_left _ _).2
    ⟨fun _ => calm.mem_calls.1, related⟩⟩

/-- The ids owned after the rename are those that follow. -/
theorem mem_callIds (calm : Calm calls nodes) (follow : Follow r nodes calls calls') {id : String} :
    id ∈ callIds calls' ↔ ∃ o : Owned, o.Among nodes ∧ movedId r o = id := by
  rw [Graph.mem_callIds]
  constructor
  · rintro ⟨o', member, rfl⟩
    obtain ⟨o, -, among, moved⟩ := exists_of_mem_right follow member
    exact ⟨o, among, moved.id.symm⟩
  · rintro ⟨o, among, rfl⟩
    obtain ⟨o', member, -, moved⟩ := exists_of_mem_left follow (calm.mem_calls.2 among)
    exact ⟨o', member, moved.id⟩

/-- The ids drawn after the rename are those rewritten. -/
theorem mem_decisionIds (calm : Calm calls nodes)
    (runs : List.Forall₂ (fun n m => retargetNode r n = .ok m) nodes ms) {id : String} :
    id ∈ decisionIds (ms.map (renamed r names)) ↔
      ∃ o : Owned, o.Among nodes ∧ rekey r names o.id = id := by
  rw [decisionIds_renamed names runs, List.mem_map]
  simp only [calm.ids, Graph.mem_callIds, calm.mem_calls]
  grind

/-- No two decision nodes get one id. -/
theorem nodup_decisionIds (h : Renamable r nodes n fs) (calm : Calm calls nodes)
    (deciding : decidingNames n = .ok names)
    (runs : List.Forall₂ (fun n m => retargetNode r n = .ok m) nodes ms) :
    (decisionIds (ms.map (renamed r names))).Nodup := by
  rw [decisionIds_renamed names runs]
  refine calm.nodup.map_on fun id there id' there' same => ?_
  rw [calm.ids, Graph.mem_callIds] at there there'
  obtain ⟨o, member, rfl⟩ := there
  obtain ⟨p, member', rfl⟩ := there'
  exact (h.rekey_inj deciding (calm.mem_calls.1 member) (calm.mem_calls.1 member')).1 same

/-- A decision node that went along shows what it should. -/
theorem shows_renamed (h : Renamable r nodes n fs) (calm : Calm calls nodes)
    (deciding : decidingNames n = .ok names) (follow : Follow r nodes calls calls') {x : Node}
    (member : x ∈ nodes) (decision : x.isDecision)
    (called : (renamed r names x).id ∈ callIds calls') :
    (renamed r names x).ShowsLast calls' := by
  obtain ⟨o, s, last, summary, current⟩ := calm.shows x member decision
  obtain ⟨there, id⟩ := Graph.lastCall?_eq_some last
  have among := calm.mem_calls.1 there
  have moves : ¬ Left r fs o := by
    intro left
    rw [id_renamed decision, ← id, h.rekey_of_left deciding among left] at called
    obtain ⟨p, amongP, same⟩ := (mem_callIds calm follow).1 called
    exact h.movedId_ne_of_left among amongP left same
  have newId : (renamed r names x).id = movedId r o := by
    rw [id_renamed decision, ← id, h.rekey_of_moved deciding among moves]
  obtain ⟨o', last', -, moved⟩ :=
    Graph.exists_lastCall? follow last (renamed r names x).id fun p p' ⟨amongP, moved⟩ => by
      rw [newId, moved.id, h.movedId_inj amongP among, id]
  have summary' := moved.summary summary
  refine ⟨o', _, last', summary', ?_⟩
  cases given : ownedId? r names x.id with
  | none =>
    -- The node keeps its id, so its owner does, too.
    have same : renamed r names x = x := by simp [renamed, decision, given]
    rw [same, ← id] at newId
    have owners := (Identifier.decisionId_inj (h.ownerFree among) (h.idFree among) newId).1
    rw [same, ← owners, put_owner summary]
    exact current
  | some i =>
    have own : r.id o.owner.id = r.new := if_pos (h.old_of_ownedId? deciding among (id ▸ given))
    rw [own] at summary' ⊢
    exact isStale_put_owner summary summary' (by simp [renamed, decision, given]) current

/-- An empty decision can always be drawn. -/
theorem exists_node_of_bare {o : Owned} (bare : o.decision = []) (settings : Settings) :
    ∃ m, o.node settings = .ok m := by
  have position : o.position settings = .ok (Owned.below o.owner settings) := by
    simp [Owned.position, bare, Entries.get]
  have none : (o.decision.get "conditions").elementsOrNone = .ok [] := by
    rw [bare]
    rfl
  obtain ⟨s, summary⟩ : ∃ s, o.summary = .ok s := exists_bind_eq_ok.2 ⟨[], none, _, rfl⟩
  exact exists_bind_eq_ok.2 ⟨_, position, exists_bind_eq_ok.2 ⟨s, summary, _, rfl⟩⟩

/-- The decision nodes that are missing after the rename can be built. -/
theorem built_renamed (h : Renamable r nodes n fs) (calm : Calm calls nodes)
    (deciding : decidingNames n = .ok names) (follow : Follow r nodes calls calls')
    (runs : List.Forall₂ (fun n m => retargetNode r n = .ok m) nodes ms) (settings : Settings) :
    ∃ built, (Graph.missing calls' (ms.map (renamed r names))).mapM (·.node settings) =
      .ok built := by
  refine exists_mapM fun o' missing => ?_
  obtain ⟨kept, absent⟩ := List.mem_filter.1 missing
  have called : o' ∈ calls' :=
    ((Graph.foldl_putOwned [] calls' .nil).2.1 o' kept).resolve_left nofun
  obtain ⟨o, -, among, moved⟩ := exists_of_mem_right follow called
  have left : Left r fs o := by
    by_contra moves
    have there : o'.id ∈ decisionIds (ms.map (renamed r names)) := (mem_decisionIds calm runs).2
      ⟨o, among, (h.rekey_of_moved deciding among moves).trans moved.id.symm⟩
    rw [← Graph.isPresent_iff] at there
    simp [there] at absent
  have none : o'.decision = [] := by
    rw [moved.decision, h.decision_of_left among left]
    rfl
  exact exists_node_of_bare none settings

end Renamable

/-! ## Renaming a calm graph -/

/-- What a rename makes of a node: at most its id changes, and that of a decision node as its
owner's does if its decision counts as true. -/
structure Renames (r : Renaming) (fs : List Entries) (x m : Node) : Prop where
  position : m.position = x.position
  selected : m.selected = x.selected
  kind : m.kind = x.kind
  regular : x.isDecision = false → m.id = r.id x.id
  follows : x.isDecision → ∀ name, Counts fs name →
    x.id = Identifier.decisionId r.old name → m.id = Identifier.decisionId r.new name
  stays : x.isDecision → (∀ name, Counts fs name → x.id ≠ Identifier.decisionId r.old name) →
    m.id = x.id

theorem Renames.refl {r : Renaming} (same : r.new = r.old) (fs : List Entries) (x : Node) :
    Renames r fs x x where
  position := rfl
  selected := rfl
  kind := rfl
  regular _ := by
    unfold Renaming.id
    grind
  follows _ name _ id := by rw [same, id]
  stays _ _ := rfl

/-- The nodes that reconciling replaces after a rename: those of the bare decisions. -/
structure ReplacesBare (r : Renaming) (fs : List Entries) (result : Graph.Reconciled) : Prop where
  updated : result.updated = []
  created : ∀ id, id ∈ result.created ↔
    r.new ≠ r.old ∧ ∃ name, Bare fs name ∧ id = Identifier.decisionId r.new name
  removed : ∀ id, id ∈ result.removed ↔
    r.new ≠ r.old ∧ ∃ name, Bare fs name ∧ id = Identifier.decisionId r.old name

/-- Nothing changes when the id stays or no decision is bare. -/
theorem ReplacesBare.changed_iff {r : Renaming} {fs : List Entries} {result : Graph.Reconciled}
    (replaces : ReplacesBare r fs result) :
    result.changed = false ↔ r.new = r.old ∨ ∀ name, ¬ Bare fs name := by
  simp only [Graph.Reconciled.changed, Bool.not_eq_false', Bool.and_eq_true, List.isEmpty_iff,
    replaces.updated, and_true, List.eq_nil_iff_forall_not_mem, replaces.created, replaces.removed]
  grind

namespace Renamable

variable {r : Renaming} {nodes ms : List Node} {n : Node} {fs : List Entries}
  {names : List Document} {calls calls' : List Owned}

/-- A rename leaves all of a node but its id and its data. -/
theorem exists_renamed {x m : Node} (run : retargetNode r x = .ok m) (names : List Document) :
    ∃ id data, renamed r names m = { x with id, data } := by
  rw [renamed_eq]
  obtain rfl | ⟨functions, rfl⟩ := retargetNode_eq_ok run
  all_goals exact ⟨_, _, rfl⟩

theorem renames (h : Renamable r nodes n fs) (deciding : decidingNames n = .ok names) {x m : Node}
    (run : retargetNode r x = .ok m) : Renames r fs x (renamed r names m) := by
  have sort := (keeps_retargetNode run).sort
  have decided (decision : x.isDecision) : (renamed r names m).id = rekey r names x.id := by
    obtain rfl := Except.ok.inj ((retargetNode_of_isDecision decision).symm.trans run)
    exact id_renamed decision
  obtain ⟨id, data, same⟩ := exists_renamed run names
  obtain ⟨called, rfl, counts⟩ := h.exists_names deciding
  refine ⟨by rw [same], by rw [same], by rw [same], fun notDecision => ?_,
    fun decision name counted id => ?_, fun decision others => ?_⟩
  · rw [renamed_of_regular (sort.trans notDecision), ← (keeps_retargetNode run).id, Renaming.id]
    split <;> rfl
  · rw [decided decision, rekey, id, ownedId?_own h.oldFree ((counts name).2 counted)]
    rfl
  · rw [decided decision, rekey, ownedId?_eq_none fun name member =>
      others name ((counts name).1 member)]
    rfl

/-- A bare decision should have the new id. -/
theorem movedId_of_left {o : Owned} {name : String} (left : Left r fs o)
    (named : o.name = .text name) : movedId r o = Identifier.decisionId r.new name := by
  rw [movedId, named, Graph.decisionIdOf_text, left.2.1, Renaming.id, if_pos rfl]

/-- It has the old one. -/
theorem id_of_left {o : Owned} {name : String} (left : Left r fs o)
    (named : o.name = .text name) : o.id = Identifier.decisionId r.old name := by
  rw [Owned.id, named, Graph.decisionIdOf_text, left.2.1]

/-- The decisions without a node are those that are left, under their new ids. -/
theorem mem_created (h : Renamable r nodes n fs) (calm : Calm calls nodes)
    (deciding : decidingNames n = .ok names) (follow : Follow r nodes calls calls')
    (runs : List.Forall₂ (fun n m => retargetNode r n = .ok m) nodes ms) {id : String} :
    id ∈ callIds calls' ∧ id ∉ decisionIds (ms.map (renamed r names)) ↔
      r.new ≠ r.old ∧ ∃ name, Bare fs name ∧ id = Identifier.decisionId r.new name := by
  rw [mem_callIds calm follow, mem_decisionIds calm runs]
  constructor
  · rintro ⟨⟨o, among, rfl⟩, absent⟩
    have left : Left r fs o := by
      by_contra moves
      exact absent ⟨o, among, h.rekey_of_moved deciding among moves⟩
    obtain ⟨name, named⟩ := h.exists_name among
    obtain ⟨ne, bare⟩ := h.exists_left_iff.1 ⟨o, among, left, named⟩
    exact ⟨ne, name, bare, movedId_of_left left named⟩
  · rintro ⟨ne, name, bare, rfl⟩
    obtain ⟨o, among, left, named⟩ := h.exists_left_iff.2 ⟨ne, bare⟩
    refine ⟨⟨o, among, movedId_of_left left named⟩, fun ⟨p, amongP, same⟩ => ?_⟩
    rw [← movedId_of_left left named] at same
    exact h.rekey_ne_of_left deciding among amongP left same

/-- The decision nodes that nothing calls for are those of what is left, under their old ids. -/
theorem mem_removed (h : Renamable r nodes n fs) (calm : Calm calls nodes)
    (deciding : decidingNames n = .ok names) (follow : Follow r nodes calls calls')
    (runs : List.Forall₂ (fun n m => retargetNode r n = .ok m) nodes ms) {id : String} :
    id ∈ decisionIds (ms.map (renamed r names)) ∧ id ∉ callIds calls' ↔
      r.new ≠ r.old ∧ ∃ name, Bare fs name ∧ id = Identifier.decisionId r.old name := by
  rw [mem_callIds calm follow, mem_decisionIds calm runs]
  constructor
  · rintro ⟨⟨o, among, rfl⟩, uncalled⟩
    have left : Left r fs o := by
      by_contra moves
      exact uncalled ⟨o, among, (h.rekey_of_moved deciding among moves).symm⟩
    obtain ⟨name, named⟩ := h.exists_name among
    obtain ⟨ne, bare⟩ := h.exists_left_iff.1 ⟨o, among, left, named⟩
    exact ⟨ne, name, bare, (h.rekey_of_left deciding among left).trans (id_of_left left named)⟩
  · rintro ⟨ne, name, bare, rfl⟩
    obtain ⟨o, among, left, named⟩ := h.exists_left_iff.2 ⟨ne, bare⟩
    rw [← id_of_left left named]
    exact ⟨⟨o, among, h.rekey_of_left deciding among left⟩, fun ⟨p, amongP, same⟩ =>
      h.movedId_ne_of_left among amongP left same⟩

/-- Reconciling after the rename only replaces the nodes of bare decisions. -/
theorem replacesBare (h : Renamable r nodes n fs) (calm : Calm calls nodes)
    (deciding : decidingNames n = .ok names)
    (runs : List.Forall₂ (fun n m => retargetNode r n = .ok m) nodes ms)
    (settings : Settings) : ∃ result,
      Graph.reconcile settings (ms.map (renamed r names)) = .ok result ∧
      ReplacesBare r fs result := by
  obtain ⟨calls', calling, follow⟩ := exists_calls calm runs names
  obtain ⟨built, builds⟩ := h.built_renamed calm deciding follow runs settings
  have shows : ∀ m ∈ ms.map (renamed r names), m.isDecision → m.id ∈ callIds calls' →
      m.ShowsLast calls' := by
    intro m member decision called
    obtain ⟨y, there, rfl⟩ := List.mem_map.1 member
    obtain ⟨x, found, run⟩ := exists_of_mem_right runs there
    rw [isDecision_renamed, (keeps_retargetNode run).sort] at decision
    obtain rfl := Except.ok.inj ((retargetNode_of_isDecision decision).symm.trans run)
    exact h.shows_renamed calm deciding follow found decision called
  refine ⟨_, Graph.reconcile_of_shown calling (h.nodup_decisionIds calm deciding runs) shows builds,
    rfl, fun id => ?_, fun id => ?_⟩
  · rw [← h.mem_created calm deciding follow runs]
    simp
  · rw [← h.mem_removed calm deciding follow runs]
    simp

end Renamable

/-- Renaming a node of a graph that reconciling leaves as it is moves the node's decision nodes to
their new ids, where they stay as they were. After that reconciling updates nothing, and what it
makes and takes away are the decision nodes of bare decisions. -/
theorem renameNode_moves {settings settings' settings'' : Settings} {r : Renaming}
    {nodes nodes' : List Node} {before : Graph.Reconciled} (addressed : Addressed nodes)
    (reconciled : Graph.reconcile settings nodes = .ok before) (unchanged : before.changed = false)
    (h : renameNode settings' r nodes = .ok nodes') :
    ∃ (n : Node) (fs : List Entries) (final : String) (after : Graph.Reconciled),
      n ∈ regular nodes ∧ n.id = r.old ∧ n.functions = .ok fs ∧
      List.Forall₂ (Renames { r with new := final } fs) nodes nodes' ∧
      Graph.reconcile settings'' nodes' = .ok after ∧
      ReplacesBare { r with new := final } fs after ∧
      (after.changed = false ↔ final = r.old ∨ ∀ name, ¬ Bare fs name) := by
  obtain ⟨calls, calm⟩ := Graph.calm_of_reconcile reconciled unchanged
  obtain ⟨n, first, notDecision, stages⟩ := stages_of_renameNode h
  have member : n ∈ regular nodes :=
    Graph.mem_regular.2 ⟨List.mem_of_find?_eq_some first, notDecision⟩
  have old : n.id = r.old := by simpa using List.find?_some first
  obtain ⟨fs, functions⟩ :=
    Graph.exists_functions calm.calling (Graph.mem_regular.1 member).1 notDecision
  obtain ⟨-, rfl⟩ | ⟨final, names, ms, free, fresh, deciding, run, rfl⟩ := stages
  · have replaces : ReplacesBare { r with new := r.old } fs { nodes := nodes' } :=
      ⟨rfl, by simp, by simp⟩
    exact ⟨n, fs, r.old, _, member, old, functions,
      List.forall₂_same.2 fun x _ => .refl rfl fs x, calm.reconcile_eq settings'', replaces,
      replaces.changed_iff⟩
  · have renamable : Renamable { r with new := final } nodes n fs :=
      { addressed with
        member, old, functions
        fresh := fun m there => fresh m (Graph.mem_regular.1 there).1
        new_free := free }
    have runs := mapM_eq_ok.1 run
    obtain ⟨after, reconciles, replaces⟩ := renamable.replacesBare calm deciding runs settings''
    exact ⟨n, fs, final, after, member, old, functions,
      List.forall₂_map_right_iff.2 (runs.imp fun _ _ run => renamable.renames deciding run),
      reconciles, replaces, replaces.changed_iff⟩

/-- A node with two decisions, one of them without entries, and the decision nodes of both. -/
def polling : List Node :=
  let shown (name action : String) : Node :=
    { id := "decision-ask-" ++ name
      kind := Node.decisionKind
      position := ⟨1.0, 2.0⟩
      data := [
        (.text "label", .text name),
        (.text "action", .text action),
        (.text "condition_count", .int 0),
        (.text "source_node_id", .text "ask"),
        (.text "function_name", .text name)]
      selected := true }
  [shown "skip" "",
   { id := "ask"
     kind := "node"
     position := ⟨0.0, 5.0⟩
     data := [(.text "functions", .list [
       .object [("name", .text "choose"), ("decision", .object [
         ("action", .text "pass"), ("default_next_node_id", .text "ask")])],
       .object [("name", .text "skip"), ("decision", .object [])]])] },
   shown "choose" "pass"]

theorem addressed_polling : Addressed polling where
  nodup := List.nodup_singleton _
  free := List.forall_mem_singleton.2 (by simp [Identifier.HyphenFree])
  named := by
    refine List.forall_mem_singleton.2 fun fs functions => ?_
    obtain rfl := Except.ok.inj functions
    exact List.forall_mem_cons.2 ⟨⟨"choose", rfl, by decide⟩,
      List.forall_mem_singleton.2 ⟨"skip", rfl, by decide⟩⟩

theorem renameNode_moves_polling : Addressed polling ∧ ∃ before nodes',
    Graph.reconcile {} polling = .ok before ∧ before.changed = false ∧
    renameNode {} ⟨"ask", "query"⟩ polling = .ok nodes' ∧
    ∃ (n : Node) (fs : List Entries) (final : String) (after : Graph.Reconciled),
      n ∈ regular polling ∧ n.id = "ask" ∧ n.functions = .ok fs ∧
      List.Forall₂ (Renames ⟨"ask", final⟩ fs) polling nodes' ∧
      Graph.reconcile {} nodes' = .ok after ∧ ReplacesBare ⟨"ask", final⟩ fs after ∧
      (after.changed = false ↔ final = "ask" ∨ ∀ name, ¬ Bare fs name) := by
  obtain ⟨before, reconciled, unchanged⟩ : ∃ before, Graph.reconcile {} polling = .ok before ∧
      before.changed = false := ⟨_, rfl, rfl⟩
  obtain ⟨nodes', renames⟩ : ∃ nodes', renameNode {} ⟨"ask", "query"⟩ polling = .ok nodes' :=
    ⟨_, rfl⟩
  exact ⟨addressed_polling, before, nodes', reconciled, unchanged, renames,
    renameNode_moves addressed_polling reconciled unchanged renames⟩

/-- The decision node of the decision without entries is taken away, and another is made. -/
theorem renameNode_leaves_skip : ∃ before nodes' after,
    Addressed polling ∧ Graph.reconcile {} polling = .ok before ∧ before.changed = false ∧
    renameNode {} ⟨"ask", "query"⟩ polling = .ok nodes' ∧
    decisionIds nodes' = ["decision-ask-skip", "decision-query-choose"] ∧
    Graph.reconcile {} nodes' = .ok after ∧ after.created = ["decision-query-skip"] ∧
    after.removed = ["decision-ask-skip"] :=
  ⟨_, _, _, addressed_polling, rfl, rfl, rfl, rfl, rfl, rfl, rfl⟩

end Dialogue.Edit
