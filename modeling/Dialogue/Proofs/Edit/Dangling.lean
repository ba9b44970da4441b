import Dialogue.Proofs.Check.Gate
import Dialogue.Proofs.Edit.Rename

/-!
# Dangling routes of a renamed flow

The check tells each route that ends at no node, with its place. After a rename it tells the same
ones, but for those that lead to the new id: that is an id which no node has, but routes may lead to
it all the same, and then they are captured.
-/

namespace Dialogue

namespace RouteIssue

/-- Whether an issue is about a route that ends at no node. -/
def isDangling (i : RouteIssue) : Bool :=
  i.keyword ∈ ["nextNodeExists", "decisionDefaultExists", "conditionTargetExists"]

/-- What is at fault, and where. -/
def mark (i : RouteIssue) : String × String := (i.keyword, i.path)

/-- Whether an issue tells an id as the target that is at fault. -/
def leadsTo (id : String) (i : RouteIssue) : Bool := (i.params.lookup "target").any (·.isText id)

end RouteIssue

namespace Check

/-- The issues of routes that end at no node. -/
def dangling (issues : List RouteIssue) : List RouteIssue := issues.filter (·.isDangling)

@[simp] theorem dangling_append (is js : List RouteIssue) :
    dangling (is ++ js) = dangling is ++ dangling js :=
  List.filter_append ..

/-! ## Only routes dangle -/

/-- Issues of other keywords are no dangling routes. -/
theorem dangling_eq_nil {is : List RouteIssue} (other : ∀ i ∈ is, i.isDangling = false) :
    dangling is = [] :=
  List.filter_eq_nil_iff.2 fun i member => by simp [other i member]

/-- Items without dangling routes have none together. -/
theorem dangling_flatten {α : Type} {f : α → Loose (List RouteIssue)} {xs : List α}
    {iss : List (List RouteIssue)} (run : xs.mapM f = .ok iss)
    (none : ∀ x is, f x = .ok is → dangling is = []) : dangling iss.flatten = [] := by
  rw [dangling, List.filter_flatten, List.flatten_eq_nil_iff]
  refine List.forall_mem_map.2 fun is member => ?_
  obtain ⟨x, -, found⟩ := exists_of_mem_right (mapM_eq_ok.1 run) member
  exact none x is found

theorem dangling_functionNameIssues (node : Document × Nat) (is : List RouteIssue)
    (run : functionNameIssues node = .ok is) : dangling is = [] := by
  obtain ⟨functions, -, run⟩ := bind_eq_ok.1 run
  obtain ⟨owner, -, run⟩ := bind_eq_ok.1 run
  obtain ⟨found, -, run⟩ := bind_eq_ok.1 run
  obtain rfl := Except.ok.inj run
  exact dangling_eq_nil (List.forall_mem_map.2 fun _ _ => rfl)

theorem dangling_edgeIssues {ids : Keys} (edge : Document × Nat) (is : List RouteIssue)
    (run : edgeIssues ids edge = .ok is) : dangling is = [] := by
  have ends {field keyword title : String} {es : Entries} {is : List RouteIssue}
      (other : (edgeEndIssue edge.2 field keyword title es).isDangling = false)
      (run : edgeEndIssues ids edge.2 field keyword title es = .ok is) :
      ∀ i ∈ is, i.isDangling = false := by
    obtain ⟨missing, -, run⟩ := bind_eq_ok.1 run
    cases missing <;> obtain rfl := Except.ok.inj run <;> simp [other]
  obtain ⟨es, -, run⟩ := bind_eq_ok.1 run
  obtain ⟨sources, left, run⟩ := bind_eq_ok.1 run
  obtain ⟨targets, right, run⟩ := bind_eq_ok.1 run
  obtain rfl := Except.ok.inj run
  exact dangling_eq_nil (List.forall_mem_append.2 ⟨ends rfl left, ends rfl right⟩)

theorem dangling_initialIssues {nodes : List Document} {is : List RouteIssue}
    (run : initialIssues nodes = .ok is) : dangling is = [] :=
  dangling_eq_nil fun i member => by
    simp [RouteIssue.isDangling, (warning_of_mem_initialIssues run member).2]

/-- Of what the check of a document tells, the dangling routes are those of its nodes. -/
theorem dangling_of_routeIssues {es : Entries} {ds : List Document} {is : List RouteIssue}
    (stands : es.get "nodes" = .list ds) (run : routeIssues (.map es) = .ok is) :
    ∃ ids routes, ds.mapM (fun n => do (← n.field "id").asKey) = .ok ids ∧
      ds.zipIdx.mapM (nodeIssues ids) = .ok routes ∧ dangling is = dangling routes.flatten := by
  simp only [routeIssues, Document.entries, ok_bind, stands, Document.elementsOrNone_list] at run
  obtain ⟨repeated, -, run⟩ := bind_eq_ok.1 run
  obtain ⟨names, named, run⟩ := bind_eq_ok.1 run
  obtain ⟨ids, keyed, run⟩ := bind_eq_ok.1 run
  obtain ⟨items, -, run⟩ := bind_eq_ok.1 run
  obtain ⟨edges, ends, run⟩ := bind_eq_ok.1 run
  obtain ⟨routes, routed, run⟩ := bind_eq_ok.1 run
  obtain ⟨initial, warned, run⟩ := bind_eq_ok.1 run
  obtain rfl := Except.ok.inj run
  have repeatedOther : dangling (repeated.map nodeIdIssue) = [] :=
    dangling_eq_nil (List.forall_mem_map.2 fun _ _ => rfl)
  have namesOther := dangling_flatten named dangling_functionNameIssues
  have edgesOther := dangling_flatten ends dangling_edgeIssues
  have initialOther := dangling_initialIssues warned
  exact ⟨ids, routes, keyed, routed,
    by simp [repeatedOther, namesOther, edgesOther, initialOther]⟩

/-! ## The dangling routes of a shown flow -/

namespace Fault

/-- What is at fault, and where. -/
def mark (x : Fault) : String × String := x.issue.mark

variable (i j : Nat) (owner name : String) (spot : Spot) (target : String)

theorem isDangling_lostRoute :
    (lostRoute i j owner name spot target).issue.isDangling := by
  cases spot <;> rfl

theorem leadsTo_lostRoute (id : String) :
    (lostRoute i j owner name spot target).issue.leadsTo id = (target == id) := by
  cases spot <;> simp [issue, RouteIssue.leadsTo, subject, value]

/-- A mark does not tell where the route leads. -/
theorem mark_lostRoute (owner' target' : String) :
    (lostRoute i j owner name spot target).mark =
      (lostRoute i j owner' name spot target').mark := by
  cases spot <;> rfl

end Fault

/-- The dangling issues of a flow that is shown are its lost routes, in order. -/
theorem dangling_routeIssues {d : Document} {f : Flow} (shown : f.ShownIn d) :
    ∃ is, routeIssues d = .ok is ∧ dangling is = f.lostRoutes.map Fault.issue := by
  obtain ⟨is, run, -⟩ := clearIff_routeIssues shown
  obtain ⟨es, rfl, ⟨ds, stands, nodes⟩, -⟩ := shown
  obtain ⟨ids, routes, keyed, routed, only⟩ := dangling_of_routeIssues stands run
  obtain rfl : f.ids.map .text = ids := by
    have texts := mapM_of_forall₂ nodes (f := fun n => do (← n.field "id").asKey)
      (g := fun n => Scalar.text n.id) fun d n h => by simp [h.field_id, Document.asKey]
    rw [Flow.ids, List.map_map]
    exact Except.ok.inj (texts.symm.trans keyed)
  have lost := mapM_of_forall₂ (forall₂_zipIdx_zipIdx nodes 0) (f := nodeIssues (f.ids.map .text))
    (g := fun n => (n.1.lostRoutes n.2 f.ids).map Fault.issue) <| by
      rintro ⟨d, i⟩ ⟨n, i'⟩ ⟨shows, rfl : i = i'⟩
      exact nodeIssues_of_shownIn f.ids shows i
  obtain rfl := Except.ok.inj (routed.symm.trans lost)
  refine ⟨is, run, only.trans ?_⟩
  rw [← List.flatMap_def, ← List.map_flatMap]
  refine List.filter_eq_self.2 (List.forall_mem_map.2 fun x member => ?_)
  obtain ⟨i, j, owner, name, spot, target, rfl, -⟩ := Flow.mem_lostRoutes.1 member
  exact Fault.isDangling_lostRoute ..

/-- No two lost routes of a flow have one path. -/
theorem Fault.eq_of_path {f : Flow} {x y : Fault} (left : x ∈ f.lostRoutes)
    (right : y ∈ f.lostRoutes) (same : x.issue.path = y.issue.path) : x = y := by
  have holds : ∀ x ∈ f.lostRoutes, x.Holds f := fun x lost =>
    Flow.mem_faults.1 (List.mem_append_right _ lost)
  have steps : x.steps = y.steps := pathOf_inj x.slashFree_steps y.slashFree_steps same
  exact eq_of_steps (holds x left) (holds y right) steps

end Check

namespace Edit

open Check (Fault dangling)

variable {r : Renaming}

/-! ## Routes of a renamed flow -/

/-- Live targets are renamed where they stand. -/
theorem targetsAt_renamed {f : NodeFunction} (empty : ∀ s, r.id s = "" ↔ s = "") :
    (f.renamed r).targetsAt = f.targetsAt.map fun t => (t.1, r.id t.2) := by
  cases h : f.decision with
  | some d =>
    simp [NodeFunction.targetsAt, decision_renamed, h, Decision.renamed, Condition.renamed,
      List.zipIdx_map, Function.comp_def]
  | none =>
    simp [NodeFunction.targetsAt, decision_renamed, h, directTarget?_renamed empty,
      Option.toList_map, Function.comp_def]

/-- The routes of a renamed function that are lost are those that were, but for those captured. -/
theorem marks_site {ids ids' : List String} (empty : ∀ s, r.id s = "" ↔ s = "")
    (ends : ∀ t, r.id t ∈ ids' ↔ t ∈ ids ∨ t = r.new) (m : FlowNode) (s : Site) :
    (Site.lostRoutes ids' ⟨m, s.i, s.function.renamed r, s.j⟩).map Fault.mark =
      ((s.lostRoutes ids).filter (·.value ≠ r.new)).map Fault.mark := by
  simp only [Site.lostRoutes, targetsAt_renamed empty, List.filter_map, List.map_map,
    List.filter_filter]
  have lost : ∀ t : Spot × String, decide (r.id t.2 ∉ ids') =
      (decide (t.2 ≠ r.new) && decide (t.2 ∉ ids)) := by
    simp [ends, and_comm]
  simp only [Function.comp_def, lost]
  exact List.map_congr_left fun t _ => Fault.mark_lostRoute ..

/-- A rename takes from the lost routes of a node those that lead to the new id, and no others. -/
theorem marks_node {ids ids' : List String} (empty : ∀ s, r.id s = "" ↔ s = "")
    (ends : ∀ t, r.id t ∈ ids' ↔ t ∈ ids ∨ t = r.new) {n m : FlowNode}
    (data : m.data = n.data.renamed r) (i : Nat) :
    (m.lostRoutes i ids').map Fault.mark =
      ((n.lostRoutes i ids).filter (·.value ≠ r.new)).map Fault.mark := by
  have sites : m.sites i = (n.sites i).map fun s => ⟨m, s.i, s.function.renamed r, s.j⟩ := by
    simp [FlowNode.sites, data, List.zipIdx_map, Function.comp_def]
  simp only [FlowNode.lostRoutes, sites, List.flatMap_map, List.map_flatMap, List.filter_flatMap,
    marks_site empty ends]

/-- All nodes of the flow have renamed data, the renamed one included. -/
theorem forall₂_renamedNodes {ns₁ ns₂ : List FlowNode} {n : FlowNode} :
    List.Forall₂ (fun m n => m.data = n.data.renamed r) (renamedNodes r ns₁ n ns₂)
      (ns₁ ++ n :: ns₂) := by
  have all (ns : List FlowNode) :
      List.Forall₂ (fun m n : FlowNode => m.data = n.data.renamed r) (ns.map (·.renamed r)) ns :=
    List.forall₂_map_left_iff.2 (List.forall₂_same.2 fun _ _ => rfl)
  exact List.rel_append (all ns₁) (.cons rfl (all ns₂))

/-- The same for the lost routes of the whole flow. -/
theorem marks_lostRoutes {f g : Flow} (empty : ∀ s, r.id s = "" ↔ s = "")
    (renamed : RenamedFlow r f g) :
    g.lostRoutes.map Fault.mark = (f.lostRoutes.filter (·.value ≠ r.new)).map Fault.mark := by
  obtain ⟨ns₁, n, ns₂, old, first, new⟩ := renamed.nodes
  have nodes : List.Forall₂ (fun m n => m.data = n.data.renamed r) g.nodes f.nodes := by
    rw [old, new]
    exact forall₂_renamedNodes
  simp only [Flow.lostRoutes, List.map_flatMap, List.filter_flatMap]
  rw [List.flatMap_def, List.flatMap_def]
  refine congrArg List.flatten (map_of_forall₂ (forall₂_zipIdx_zipIdx nodes 0) ?_)
  rintro ⟨m, i⟩ ⟨n, i'⟩ ⟨data, rfl : i = i'⟩
  exact marks_node empty (id_mem_ids old first new) data i

/-! ## The result -/

/-- The marks of what is left of the issues of lost routes without those of routes to an id. -/
theorem marks_uncaptured (f : Flow) (id : String) :
    ((f.lostRoutes.map Fault.issue).filter fun i => !i.leadsTo id).map (·.mark) =
      (f.lostRoutes.filter (·.value ≠ id)).map Fault.mark := by
  rw [List.filter_map, List.map_map]
  refine congrArg (List.map Fault.mark) (List.filter_congr fun x member => ?_)
  obtain ⟨i, j, owner, name, spot, target, rfl, -⟩ := Flow.mem_lostRoutes.1 member
  by_cases same : target = id <;> simp [Fault.leadsTo_lostRoute, Fault.value, same]

/-- No lost route leads to a node. -/
theorem value_ne_of_mem_ids {f : Flow} {x : Fault} {id : String} (lost : x ∈ f.lostRoutes)
    (known : id ∈ f.ids) : x.value ≠ id := by
  obtain ⟨i, j, owner, name, spot, target, rfl, n, g, -, -, -, -, -, missing⟩ :=
    Flow.mem_lostRoutes.1 lost
  rintro rfl
  exact missing known

/-- After a rename those routes dangle that did, but for those to the new id. -/
theorem marks_rename {settings : Settings} {d result : Document} {f : Flow} {final : String}
    (checked : Flow.check d = .ok f) (plan : planRename settings r d = .ok final)
    (made : rename settings r d = .ok result) : ∃ js, Check.routeIssues result = .ok js ∧
      (dangling js).map (·.mark) = (f.lostRoutes.filter (·.value ≠ final)).map Fault.mark := by
  obtain ⟨⟨es, rfl, shown⟩, lawful⟩ := Flow.shownIn_of_check checked
  have planned := plan
  rw [planRename_of_shownBy shown] at planned
  obtain ⟨known, new⟩ := finalId_spec lawful.hyphenFree planned
  by_cases same : final = r.old
  · -- The document stays, and no dangling route leads to an id that a node has.
    obtain ⟨result', made', renamed⟩ := renamed_of_planRename shown lawful plan
    obtain rfl := Except.ok.inj (made'.symm.trans made)
    obtain ⟨is, found, lost⟩ := Check.dangling_routeIssues ⟨es, rfl, shown⟩
    refine ⟨is, by rwa [renamed.unchanged same], ?_⟩
    rw [List.filter_eq_self.2, lost, List.map_map]
    · rfl
    · exact fun x member => decide_eq_true (same ▸ value_ne_of_mem_ids member known)
  · obtain ⟨-, result', made', -, g, shows, renamed⟩ := rename_of_planRename shown lawful plan same
    obtain rfl := Except.ok.inj (made'.symm.trans made)
    obtain ⟨js, found, lost⟩ := Check.dangling_routeIssues shows
    have empty := Renaming.id_eq_empty_iff (r := ⟨r.old, final⟩)
      (Identifier.ne_empty_of_isIdentifier (lawful.isIdentifier _ known)) (new same).2
    refine ⟨js, found, ?_⟩
    rw [lost, List.map_map, ← marks_lostRoutes empty renamed]
    rfl

/-- Renaming a node of a valid flow leaves the dangling routes where they are but for those that
lead to the id which the node gets: no others come up, and others are not lost. -/
theorem rename_dangling (settings : Settings) (r : Renaming) {d : Document} {f : Flow}
    (checked : Flow.check d = .ok f) {result : Document}
    (made : rename settings r d = .ok result) :
    ∃ final is js, planRename settings r d = .ok final ∧ Check.routeIssues d = .ok is ∧
      Check.routeIssues result = .ok js ∧
      (dangling js).map (·.mark) =
        ((dangling is).filter fun i => !i.leadsTo final).map (·.mark) ∧
      ((∀ m, m ∈ (dangling js).map (·.mark) ↔ m ∈ (dangling is).map (·.mark)) ↔
        ∀ i ∈ dangling is, i.leadsTo final = false) := by
  obtain ⟨final, plan, -⟩ := bind_eq_ok.1 made
  obtain ⟨is, found, lost⟩ := Check.dangling_routeIssues (Flow.shownIn_of_check checked).1
  obtain ⟨js, found', marks⟩ := marks_rename checked plan made
  rw [← marks_uncaptured, ← lost] at marks
  refine ⟨final, is, js, plan, found, found', marks, ?_⟩
  rw [marks]
  constructor
  · -- What leads to the new id has a mark that no other route has.
    intro same i member
    have kept : i.mark ∈ ((dangling is).filter fun i => !i.leadsTo final).map (·.mark) :=
      (same i.mark).2 (List.mem_map_of_mem member)
    obtain ⟨i', there, alike⟩ := List.mem_map.1 kept
    obtain ⟨member', other⟩ := List.mem_filter.1 there
    rw [lost] at member member'
    obtain ⟨x, left, rfl⟩ := List.mem_map.1 member
    obtain ⟨y, right, rfl⟩ := List.mem_map.1 member'
    obtain rfl := Fault.eq_of_path right left (Prod.mk.inj alike).2
    simpa using other
  · intro none m
    rw [List.filter_eq_self.2 fun i member => by simp [none i member]]

/-- A node most of whose routes end at no node: two lead to one id, the default one to another. -/
def stray : Flow where
  info := { name := "Stray", version := "1.0.0" }
  nodes := [
    { id := "greet"
      role := .plain
      position := ⟨0.0, 0.0⟩
      data := {
        functions := some [
          { name := "leave", description := "", target := some "close" },
          { name := "choose", description := "", decision := some {
              action := "result = 1"
              conditions := [⟨.less, "1", "close"⟩, ⟨.greater, "1", "greet"⟩]
              fallback := "nowhere" } }] } }]
  edges := []

theorem rename_dangling_stray : Flow.check stray.document = .ok stray ∧
    ∃ result, rename {} ⟨"greet", "close"⟩ stray.document = .ok result ∧
    ∃ final is js, planRename {} ⟨"greet", "close"⟩ stray.document = .ok final ∧
      Check.routeIssues stray.document = .ok is ∧ Check.routeIssues result = .ok js ∧
      (dangling js).map (·.mark) =
        ((dangling is).filter fun i => !i.leadsTo final).map (·.mark) ∧
      ((∀ m, m ∈ (dangling js).map (·.mark) ↔ m ∈ (dangling is).map (·.mark)) ↔
        ∀ i ∈ dangling is, i.leadsTo final = false) := by
  have checked : Flow.check stray.document = .ok stray := rfl
  obtain ⟨result, made⟩ : ∃ result, rename {} ⟨"greet", "close"⟩ stray.document = .ok result :=
    ⟨_, rfl⟩
  exact ⟨checked, result, made, rename_dangling {} ⟨"greet", "close"⟩ checked made⟩

/-- The node gets the id that two routes lead to: they were told before, and are no longer. -/
theorem rename_captures : ∃ result is js, Flow.check stray.document = .ok stray ∧
    rename {} ⟨"greet", "close"⟩ stray.document = .ok result ∧
    Check.routeIssues stray.document = .ok is ∧ Check.routeIssues result = .ok js ∧
    (dangling is).map (·.mark) =
      [("nextNodeExists", "/nodes/0/data/functions/0/next_node_id"),
        ("decisionDefaultExists", "/nodes/0/data/functions/1/decision/default_next_node_id"),
        ("conditionTargetExists", "/nodes/0/data/functions/1/decision/conditions/0/next_node_id")] ∧
    (dangling js).map (·.mark) =
      [("decisionDefaultExists", "/nodes/0/data/functions/1/decision/default_next_node_id")] ∧
    ¬ ∀ m, m ∈ (dangling js).map (·.mark) ↔ m ∈ (dangling is).map (·.mark) := by
  refine ⟨_, _, _, rfl, rfl, rfl, rfl, rfl, rfl, fun same => ?_⟩
  have captured := (same ("nextNodeExists", "/nodes/0/data/functions/0/next_node_id")).2
  exact absurd (captured (by decide)) (by decide)

end Edit
end Dialogue
