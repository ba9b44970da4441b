import Dialogue.Edit.Canvas
import Dialogue.Proofs.Graph.Dragging

/-!
# Detaching a decision that was found

A decision node's id leads to a function and its number. The number counts the functions that are
maps, while an edit of a function counts all entries. The two agree just where no other entry comes
before the function; otherwise the edit hits another entry.
-/

namespace Dialogue.Graph

/-! ## Numbers of entries -/

/-- A change that changes every map. -/
def marked (es : Entries) : Entries := (.null, .null) :: es

/-- The mark tells changed entries from all others. -/
theorem marked_ne (es : Entries) : marked es ≠ es := List.cons_ne_self _ _

/-- The entry that is changed has as many maps before it as its number says. -/
theorem count_of_changeNth {ds : List Document} {k i : Nat} {f : Entries}
    (item : ds[i]? = some (.map f)) (marks : changeNth marked k ds = ds.set i (.map (marked f))) :
    ((ds.take i).filter Document.isMap).length = k := by
  induction ds generalizing k i with
  | nil => cases item
  | cons d ds ih =>
    cases isMap : d.isMap with
    | true =>
      obtain ⟨es, rfl⟩ := Document.exists_of_isMap isMap
      -- The first map is marked exactly if the number is zero.
      cases k <;> cases i <;>
        simp only [changeNth, List.set_cons_zero, List.set_cons_succ, List.cons.injEq,
          Document.map.injEq, List.getElem?_cons_zero, List.getElem?_cons_succ] at marks item
      case zero.zero => rfl
      case zero.succ => exact absurd marks.1 (marked_ne es)
      case succ.zero =>
        obtain rfl : es = f := by simpa using item
        exact absurd marks.1.symm (marked_ne es)
      case succ.succ => simp [isMap, ih item marks.2]
    | false =>
      cases i with
      | zero =>
        obtain rfl : d = .map f := by simpa using item
        cases isMap
      | succ i =>
        rw [changeNth_cons_of_not_map isMap, List.set_cons_succ] at marks
        simpa [isMap] using ih item (List.cons.inj marks).2

/-- The number counts the maps before the item. -/
theorem Picks.count {test : Entries → Bool} {ds : List Document} {k i : Nat} {f : Entries}
    (picks : Picks test ds k i f) : ((ds.take i).filter Document.isMap).length = k :=
  count_of_changeNth picks.item (picks.change marked)

/-- Both ways of counting agree where all entries before are maps. -/
theorem Picks.number_iff {test : Entries → Bool} {ds : List Document} {k i : Nat} {f : Entries}
    (picks : Picks test ds k i f) : k = i ↔ ∀ d ∈ ds.take i, d.isMap := by
  obtain ⟨lt, -⟩ := List.getElem?_eq_some_iff.1 picks.item
  have length : (ds.take i).length = i := by simp [Nat.le_of_lt lt]
  rw [← picks.count, ← List.length_filter_eq_length_iff, length]

/-- What is no map moves an item behind its number, never before it. -/
theorem Picks.number_le {test : Entries → Bool} {ds : List Document} {k i : Nat} {f : Entries}
    (picks : Picks test ds k i f) : k ≤ i := by
  rw [← picks.count]
  exact Nat.le_trans (List.length_filter_le _ _) (List.length_take_le i ds)

/-! ## Edits of an entry of the owner -/

/-- Regular nodes of different ids are told apart by these. -/
theorem ne_id_of_nodup {nodes : List Node} (nodup : ((regular nodes).map (·.id)).Nodup)
    {i j : Nat} {n m : Node} (at_i : nodes[i]? = some n) (own : n.isDecision = false)
    (at_j : nodes[j]? = some m) (other : j ≠ i) (same : m.id = n.id) : m.isDecision = true := by
  by_contra regular
  have regular : m.isDecision = false := by simpa using regular
  rw [Graph.regular, List.Nodup, List.pairwise_map, List.pairwise_filter,
    List.pairwise_iff_getElem] at nodup
  obtain ⟨lt_i, rfl⟩ := List.getElem?_eq_some_iff.1 at_i
  obtain ⟨lt_j, rfl⟩ := List.getElem?_eq_some_iff.1 at_j
  rcases Nat.lt_or_gt_of_ne other with before | after
  · exact nodup j i lt_j lt_i before (by simp [regular]) (by simp [own]) same
  · exact nodup i j lt_i lt_j after (by simp [own]) (by simp [regular]) same.symm

/-- A function that loses its decision is another one. -/
theorem erase_decision_ne {f decision : Entries} (deciding : f.get "decision" = .map decision) :
    f.erase "decision" ≠ f := by
  intro same
  have absent : (f.erase "decision").get? "decision" = none := by
    simp [Entries.get?_eq_none_iff, Entries.erase]
  rw [← same, Entries.get, absent] at deciding
  cases deciding

namespace Place

open Edit (withFunction changeFunction without detachDecision isOwn)

variable {id : String} {nodes : List Node} {s : Source} (l : Place id nodes s)

/-- The owner with another entry at a place among its functions. -/
def ownerWith (j : Nat) (d : Document) : Node :=
  { s.owner with data := s.owner.data.put "functions" (.list (l.items.set j d)) }

/-- The nodes with the owner so changed, all others as they are. -/
def edited (j : Nat) (d : Document) : List Node := nodes.set l.owner (l.ownerWith j d)

/-- The nodes without the decision of the source's function. -/
def detached : List Node := l.edited l.index (.map (s.function.erase "decision"))

/-- Edits of two items make the same owner only where they make the same items. -/
theorem items_of_edited {j k : Nat} {d e : Document} (same : l.edited j d = l.edited k e) :
    l.items.set j d = l.items.set k e := by
  obtain ⟨lt, -⟩ := List.getElem?_eq_some_iff.1 l.owner_at
  have node := congrArg (fun ns => ns[l.owner]?.map fun n => n.data.get "functions") same
  simpa [edited, ownerWith, lt] using node

/-- An item of the owner is changed in its place. -/
theorem changeFunction_owner (change : Document → Loose Document) {j : Nat} {d : Document}
    (at_j : l.items[j]? = some d) :
    changeFunction change s.owner.id j s.owner = l.ownerWith j <$> change d := by
  obtain ⟨lt, here⟩ := List.getElem?_eq_some_iff.1 at_j
  have nonempty : l.items.isEmpty = false := by
    rw [List.isEmpty_eq_false_iff]
    exact List.ne_nil_of_length_pos (by omega)
  have own : isOwn s.owner.id s.owner = true := by simp [isOwn, l.regular]
  have inside : (j : Int) < l.items.length := by omega
  simp only [changeFunction, own, l.listed, Document.isTrue, nonempty, Document.elements, ok_bind,
    inside, Edit.changeAt, Int.toNat_natCast, at_j]
  cases change d <;> rfl

/-- An edit of an entry of the owner leaves all else as it is. -/
theorem withFunction_owner (nodup : ((Graph.regular nodes).map (·.id)).Nodup)
    (change : Document → Loose Document) {j : Nat} {d : Document} (at_j : l.items[j]? = some d) :
    withFunction change s.owner.id j nodes = l.edited j <$> change d := by
  have others (k : Nat) (n : Node) (at_k : nodes[k]? = some n) (ne : k ≠ l.owner) :
      changeFunction change s.owner.id j n = .ok n := by
    have other : isOwn s.owner.id n = false := by
      rw [isOwn, Bool.and_eq_false_iff, Bool.not_eq_false', decide_eq_false_iff_not]
      exact or_iff_not_imp_left.2 fun same =>
        ne_id_of_nodup nodup l.owner_at l.regular at_k ne (not_not.1 same)
    simp [changeFunction, other]
  rw [withFunction, mapM_eq_set l.owner_at others, l.changeFunction_owner change at_j]
  cases change d <;> rfl

/-- Detaching at the place of the item detaches the decision. -/
theorem detach_item (nodup : ((Graph.regular nodes).map (·.id)).Nodup) :
    detachDecision s.owner.id l.index nodes = .ok l.detached :=
  l.withFunction_owner nodup (without "decision") l.picks.item

/-- Detaching by number does so just when maps alone stand before the item. -/
theorem detach_number_iff (nodup : ((Graph.regular nodes).map (·.id)).Nodup) :
    detachDecision s.owner.id s.index nodes = .ok l.detached ↔
      ∀ d ∈ l.items.take l.index, d.isMap := by
  rw [← l.picks.number_iff]
  constructor
  · intro run
    by_contra other
    obtain ⟨lt, item⟩ := List.getElem?_eq_some_iff.1 l.picks.item
    have below : s.index < l.index := by
      have := l.picks.number_le
      omega
    have run := (l.withFunction_owner nodup (without "decision")
      (List.getElem?_eq_getElem (by omega : s.index < l.items.length))).symm.trans run
    cases changed : without "decision" l.items[s.index] with
    | error e => simp [changed] at run
    | ok d =>
      have same : l.edited s.index d = l.detached := by simpa [changed] using run
      -- The function itself is still there with its decision.
      have entry := congrArg (·[l.index]?) (l.items_of_edited same)
      simp only [List.getElem?_set_ne (Nat.ne_of_lt below), l.picks.item,
        List.getElem?_set_self lt, Option.some.injEq, Document.map.injEq] at entry
      exact erase_decision_ne l.deciding entry.symm
  · intro same
    rw [same]
    exact l.detach_item nodup

end Place

/-- The decision of a function that was found goes by an edit at the function's place among all
entries, and nothing else does. The number that is found with it counts the maps before it. An edit
at that number does the same just if there are only maps before; else it hits another entry. -/
theorem detach_found {id : String} {nodes : List Node} {s : Source}
    (found : findSource id nodes = .ok (some s)) (nodup : ((regular nodes).map (·.id)).Nodup) :
    ∃ l : Place id nodes s,
      s.index = ((l.items.take l.index).filter Document.isMap).length ∧
      Edit.detachDecision s.owner.id l.index nodes = .ok l.detached ∧
      (∃ d, l.items[s.index]? = some d ∧ Edit.detachDecision s.owner.id s.index nodes =
        l.edited s.index <$> Edit.without "decision" d) ∧
      (Edit.detachDecision s.owner.id s.index nodes = .ok l.detached ↔
        ∀ d ∈ l.items.take l.index, d.isMap) := by
  obtain ⟨l⟩ := exists_place found
  obtain ⟨lt, -⟩ := List.getElem?_eq_some_iff.1 l.picks.item
  have inside := List.getElem?_eq_getElem (Nat.lt_of_le_of_lt l.picks.number_le lt)
  exact ⟨l, l.picks.count.symm, l.detach_item nodup,
    ⟨_, inside, l.withFunction_owner nodup _ inside⟩, l.detach_number_iff nodup⟩

/-! ## A function behind another kind of entry -/

/-- A function with a decision. -/
def decider (name : String) : Entries :=
  [(.text "name", .text name), (.text "decision", .object [("action", .text "pass")])]

/-- A node with two decisions behind an entry that is no map. -/
def mixed : Node where
  id := "ask"
  kind := "node"
  position := ⟨0.0, 0.0⟩
  data := [(.text "functions", .list [.int 1, .map (decider "wait"), .map (decider "choose")])]

def mixedSource : Source where
  owner := mixed
  index := 1
  function := decider "choose"

theorem findSource_mixed : findSource "decision-ask-choose" [mixed] = .ok (some mixedSource) := by
  have parts : Identifier.decisionParts? "decision-ask-choose" = some ("ask", "choose") := by
    decide +kernel
  simp [findSource, parts, mixed, mixedSource, decider, Node.isDecision, Node.decisionKind,
    Node.functions, Node.mapsOf, Entries.get, Document.object, Document.isMap, Document.alike,
    decides]

theorem detach_found_mixed :
    findSource "decision-ask-choose" [mixed] = .ok (some mixedSource) ∧
    ((regular [mixed]).map (·.id)).Nodup ∧
    ∃ l : Place "decision-ask-choose" [mixed] mixedSource,
      mixedSource.index = ((l.items.take l.index).filter Document.isMap).length ∧
      Edit.detachDecision "ask" l.index [mixed] = .ok l.detached ∧
      (∃ d, l.items[mixedSource.index]? = some d ∧
        Edit.detachDecision "ask" mixedSource.index [mixed] =
          l.edited mixedSource.index <$> Edit.without "decision" d) ∧
      (Edit.detachDecision "ask" mixedSource.index [mixed] = .ok l.detached ↔
        ∀ d ∈ l.items.take l.index, d.isMap) :=
  ⟨findSource_mixed, List.nodup_singleton _, detach_found findSource_mixed (List.nodup_singleton _)⟩

/-- The second function is found, but an edit at the number found with it takes the decision of the
first. -/
theorem detach_mixed : findSource "decision-ask-choose" [mixed] = .ok (some mixedSource) ∧
    ((regular [mixed]).map (·.id)).Nodup ∧
    mixed.functions = .ok [decider "wait", decider "choose"] ∧
    Edit.detachDecision mixedSource.owner.id mixedSource.index [mixed] = .ok [{ mixed with
      data := [(.text "functions", .list [.int 1, .map [(.text "name", .text "wait")],
        .map (decider "choose")])] }] :=
  ⟨findSource_mixed, List.nodup_singleton _, rfl, rfl⟩

end Dialogue.Graph
