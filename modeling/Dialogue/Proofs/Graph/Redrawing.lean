import Dialogue.Proofs.Graph.Refresh

/-!
# Edges drawn anew

Which edges are shown once edges are derived anew, and when the ones on the canvas may stay. The
check looks at lengths, at ids and at the last edge of each id only. Where no two derived edges have
one id that is enough: it passes exactly the rearrangements of the derived edges.
-/

namespace Dialogue.Graph

/-- One id and routes of equal ends and labels. Whether the edges are selected does not matter. -/
def Edge.Matches (a b : Edge) : Prop := a.id = b.id ∧ a.sameRoute b

/-- An edge that is another but for being selected. A route with a float that is no number does not
even match itself, but resembles itself. -/
structure Edge.Resembles (a b : Edge) : Prop where
  id : a.id = b.id
  source : a.source = b.source
  target : a.target = b.target
  label : a.label = b.label

/-- The edges are, each related to its own, those of another list in some order. -/
def Rearranges (R : Edge → Edge → Prop) (es ds : List Edge) : Prop :=
  ∃ order, List.Forall₂ R es order ∧ order.Perm ds

theorem Rearranges.of_forall₂ {R : Edge → Edge → Prop} {es ds : List Edge}
    (related : List.Forall₂ R es ds) : Rearranges R es ds :=
  ⟨ds, related, .refl ds⟩

/-- What matches edge by edge may be weakened. -/
theorem Rearranges.imp {R S : Edge → Edge → Prop} {es ds : List Edge} (h : Rearranges R es ds)
    (weaker : ∀ a b, R a b → S a b) : Rearranges S es ds := by
  obtain ⟨order, related, perm⟩ := h
  exact ⟨order, related.imp fun a b => weaker a b, perm⟩

/-- Rearranged edges have the ids of the others. -/
theorem Rearranges.ids {R : Edge → Edge → Prop} {es ds : List Edge} (h : Rearranges R es ds)
    (ids : ∀ a b, R a b → a.id = b.id) : (es.map (·.id)).Perm (ds.map (·.id)) := by
  obtain ⟨order, related, perm⟩ := h
  rw [map_of_forall₂ related ids]
  exact perm.map (·.id)

/-! ## The last edge of an id -/

/-- The edge is in the list, and none of its id comes after it. -/
def Edge.IsLast (e : Edge) (edges : List Edge) : Prop :=
  ∃ before after, edges = before ++ e :: after ∧ ∀ x ∈ after, x.id ≠ e.id

/-- The last edge of an id is the one found by it. -/
theorem edgeById?_eq_some_iff {edges : List Edge} {id : String} {e : Edge} :
    edgeById? edges id = some e ↔ e.IsLast edges ∧ e.id = id := by
  rw [edgeById?, List.find?_eq_some_iff_append]
  constructor
  · rintro ⟨named, after, before, split, others⟩
    obtain rfl : e.id = id := by simpa using named
    refine ⟨⟨before.reverse, after.reverse, ?_, by simpa using others⟩, rfl⟩
    rw [← List.reverse_reverse edges, split]
    simp
  · rintro ⟨⟨before, after, rfl, others⟩, rfl⟩
    exact ⟨by simp, after.reverse, before.reverse, by simp, by simpa using others⟩

/-- Among edges of different ids, each is the last of its own. -/
theorem edgeById?_of_nodup {edges : List Edge} (nodup : (edges.map (·.id)).Nodup) {e : Edge}
    (member : e ∈ edges) : edgeById? edges e.id = some e := by
  refine find?_of_unique (List.mem_reverse.2 member) (by simp) fun x there same => ?_
  exact List.inj_on_of_nodup_map nodup (List.mem_reverse.1 there) member (by simpa using same)

/-! ## Edges that agree -/

/-- Edges agree if there are as many, each with its counterpart, and the last of each id has its
route. -/
theorem agree_iff {current derived : List Edge} : agree current derived ↔
    current.length = derived.length ∧ (∀ e ∈ current, ∃ d ∈ derived, d.id = e.id) ∧
      ∀ d ∈ derived, ∃ last, edgeById? current d.id = some last ∧ last.sameRoute d := by
  simp [agree, and_assoc, Option.any_eq_true]

section

variable {current derived : List Edge}

/-- As many edges as there are ids to be met have these ids, once each. -/
theorem perm_ids_of_agree (distinct : (derived.map (·.id)).Nodup) (h : agree current derived) :
    (derived.map (·.id)).Perm (current.map (·.id)) := by
  obtain ⟨length, -, routes⟩ := agree_iff.1 h
  have met : derived.map (·.id) ⊆ current.map (·.id) := by
    intro id member
    obtain ⟨d, there, rfl⟩ := List.mem_map.1 member
    obtain ⟨last, found, -⟩ := routes d there
    obtain ⟨here, same⟩ := edgeById?_eq_some found
    exact List.mem_map.2 ⟨last, here, same⟩
  exact (List.subperm_of_subset distinct met).perm_of_length_le (by simp [length])

/-- Where ids are distinct, edges that agree are matched one to one. -/
theorem rearranges_of_agree (distinct : (derived.map (·.id)).Nodup) (h : agree current derived) :
    Rearranges Edge.Matches current derived := by
  have ids := perm_ids_of_agree distinct h
  have nodup : (current.map (·.id)).Nodup := ids.nodup_iff.1 distinct
  have named : List.Forall₂ (fun id (d : Edge) => d.id = id ∧ d ∈ derived)
      (derived.map (·.id)) derived := by
    rw [List.forall₂_map_left_iff, List.forall₂_same]
    exact fun d member => ⟨rfl, member⟩
  -- The derived edges in the order in which their ids stand on the canvas.
  obtain ⟨order, paired, perm⟩ := List.perm_comp_forall₂ ids.symm named
  rw [List.forall₂_map_left_iff] at paired
  refine ⟨order, ?_, perm⟩
  refine ((List.forall₂_and_left _ _).2 ⟨fun _ here => here, paired⟩).imp ?_
  rintro c d ⟨here, id, there⟩
  obtain ⟨last, found, route⟩ := (agree_iff.1 h).2.2 d there
  rw [id, edgeById?_of_nodup nodup here] at found
  obtain rfl := Option.some.inj found
  exact ⟨id.symm, route⟩

/-- And edges that are matched one to one agree. -/
theorem agree_of_rearranges (distinct : (derived.map (·.id)).Nodup)
    (h : Rearranges Edge.Matches current derived) : agree current derived := by
  have ids := h.ids fun a b same => same.1
  have nodup : (current.map (·.id)).Nodup := ids.nodup_iff.2 distinct
  obtain ⟨order, related, perm⟩ := h
  refine agree_iff.2 ⟨related.length_eq.trans perm.length_eq, fun c here => ?_, fun d there => ?_⟩
  · obtain ⟨d, there, id, -⟩ := exists_of_mem_left related here
    exact ⟨d, perm.subset there, id.symm⟩
  · obtain ⟨c, here, id, route⟩ := exists_of_mem_right related (perm.symm.subset there)
    exact ⟨c, by rw [← id, edgeById?_of_nodup nodup here], route⟩

/-- The check cannot be fooled where no two derived edges have one id. -/
theorem agree_iff_rearranges (distinct : (derived.map (·.id)).Nodup) :
    agree current derived ↔ Rearranges Edge.Matches current derived :=
  ⟨rearranges_of_agree distinct, agree_of_rearranges distinct⟩

end

/-! ## The edges to show -/

/-- A derived edge as it is shown: selected if the last edge of its id on the canvas is. -/
structure Edge.Redraws (current : List Edge) (e d : Edge) : Prop where
  resembles : e.Resembles d
  selected : e.selected ↔ ∃ last : Edge, last.IsLast current ∧ last.id = d.id ∧ last.selected

/-- A derived edge is selected if the current one was. -/
theorem redraws_reselect (current : List Edge) (d : Edge) :
    (reselect current d).Redraws current d where
  resembles := ⟨rfl, rfl, rfl, rfl⟩
  selected := by simp [reselect, Option.any_eq_true, edgeById?_eq_some_iff, and_assoc]

/-- Either the edges are rearrangements of the derived ones and stay, or the derived ones are shown
in their order, with the selection of the last edges of their ids. No edge is lost or made up. -/
theorem reconcileEdges_exact {current derived out : List Edge} {changed : Bool}
    (distinct : (derived.map (·.id)).Nodup)
    (run : reconcileEdges current derived = (changed, out)) :
    Rearranges (fun e d => e.Matches d ∨ e.Resembles d) out derived ∧
      (changed = false ↔ Rearranges Edge.Matches current derived) ∧
      (changed = false → out = current) ∧
      (changed = true → List.Forall₂ (Edge.Redraws current) out derived) := by
  have criterion : agree current derived ↔ Rearranges Edge.Matches current derived :=
    agree_iff_rearranges distinct
  unfold reconcileEdges at run
  split at run
  case isTrue agrees =>
    obtain ⟨rfl, rfl⟩ := Prod.mk.inj run
    have same := criterion.1 agrees
    exact ⟨same.imp fun _ _ => .inl, by simp [same], fun _ => rfl, nofun⟩
  case isFalse differs =>
    obtain ⟨rfl, rfl⟩ := Prod.mk.inj run
    have redrawn :
        List.Forall₂ (Edge.Redraws current) (derived.map (reselect current)) derived := by
      rw [List.forall₂_map_left_iff, List.forall₂_same]
      exact fun d _ => redraws_reselect current d
    refine ⟨.of_forall₂ (redrawn.imp fun _ _ h => .inr h.resembles), ?_, nofun, fun _ => redrawn⟩
    simp [← criterion, differs]

/-- An edge that is twice on a canvas, selected first, with another between. -/
def drawnTwice : List Edge :=
  let back : Edge := { id := "back", source := .text "close", target := .text "greet" }
  [{ back with selected := true }, { id := "on", source := .text "greet", target := .text "close" },
   back]

/-- Both edges derived. -/
def derivedOnce : List Edge := [
  { id := "on", source := .text "greet", target := .text "close" },
  { id := "back", source := .text "close", target := .text "greet" }]

theorem reconcileEdges_exact_twice : (derivedOnce.map (·.id)).Nodup ∧ ∃ changed out,
    changed = true ∧ out = derivedOnce ∧ reconcileEdges drawnTwice derivedOnce = (changed, out) ∧
      Rearranges (fun e d => e.Matches d ∨ e.Resembles d) out derivedOnce ∧
      (changed = false ↔ Rearranges Edge.Matches drawnTwice derivedOnce) ∧
      (changed = false → out = drawnTwice) ∧
      (changed = true → List.Forall₂ (Edge.Redraws drawnTwice) out derivedOnce) :=
  ⟨by decide, _, _, rfl, rfl, rfl, reconcileEdges_exact (by decide) rfl⟩

end Dialogue.Graph
