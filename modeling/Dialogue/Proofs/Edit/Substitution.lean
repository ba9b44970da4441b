import Dialogue.Edit.Flow
import Dialogue.Proofs.Graph.Routes

/-!
# Ids replaced in documents

What it means to replace an id in every place where functions refer to nodes, and that retargeting
the nodes of a document that shows a flow does just that.
-/

namespace Dialogue

namespace Document

/-- A change of the entries of a map; other values stay as they are. -/
def onMap (f : Entries → Entries) : Document → Document
  | .map es => .map (f es)
  | d => d

/-- A change of the items of a list; other values stay as they are. -/
def onItems (f : Document → Document) : Document → Document
  | .list ds => .list (ds.map f)
  | d => d

end Document

open Document (onMap onItems)

namespace Renaming

variable (r : Renaming)

/-- The new id for the old one. -/
def id (s : String) : String := if s = r.old then r.new else s

def value (d : Document) : Document := if d.isText r.old then .text r.new else d

/-! ## Substitution -/

def inCondition (es : Entries) : Entries := es.modify targetKey r.value

def inDecision (es : Entries) : Entries :=
  (es.modify fallbackKey r.value).modify "conditions" (onItems (onMap r.inCondition))

def inFunction (es : Entries) : Entries :=
  (es.modify targetKey r.value).modify "decision" (onMap r.inDecision)

def inData (es : Entries) : Entries := es.modify "functions" (onItems (onMap r.inFunction))

/-- A node with the new id in every reference of its functions. -/
def inNode (es : Entries) : Entries := es.modify "data" (onMap r.inData)

variable {r}

@[simp] theorem value_text (s : String) : r.value (.text s) = .text (r.id s) := by
  by_cases h : s = r.old <;> simp [value, id, h]

@[simp] theorem value_null : r.value .null = .null := rfl

/-- A rename between ids that are not empty neither empties nor fills an id. -/
theorem id_eq_empty_iff (old : r.old ≠ "") (new : r.new ≠ "") (s : String) :
    r.id s = "" ↔ s = "" := by
  by_cases same : s = r.old <;> simp [id, same, old, new]

theorem retarget_eq_modify (es : Entries) (key : String) :
    es.retarget r key = es.modify key r.value := by
  cases h : es.get? key with
  | none => simp [Entries.retarget, Entries.get, h, Entries.modify_of_absent h, Document.isText,
      Document.alike, Scalar.alike, Scalar.wholeValue?]
  | some d =>
    by_cases old : d.isText r.old
    · simp [Entries.retarget, Entries.get, h, Entries.modify_of_get? h, value, old]
    · have fixed : ∀ x, es.get? key = some x → r.value x = x := fun x found => by
        obtain rfl := Option.some.inj (h.symm.trans found)
        simp [value, old]
      simp [Entries.retarget, Entries.get, h, Entries.modify_of_fixed fixed, old]

/-- Changing a value that counts as true is changing the entry, if a change leaves others alone. -/
theorem change_eq_modify {es : Entries} {key : String} {f : Document → Loose Document}
    {g : Document → Document} (total : (es.get key).isTrue → f (es.get key) = .ok (g (es.get key)))
    (fixed : (es.get key).isTrue = false → g (es.get key) = es.get key) :
    es.change key f = .ok (es.modify key g) := by
  cases h : es.get? key with
  | none => simp [Entries.change, Entries.get, h, Document.isTrue, Entries.modify_of_absent h]
  | some d =>
    have get : es.get key = d := Entries.get_of_get? h
    rw [get] at total fixed
    cases truth : d.isTrue with
    | true => simp [Entries.change, get, truth, total truth, Entries.modify_of_get? h]
    | false =>
      have same : ∀ x, es.get? key = some x → g x = x := fun x found => by
        obtain rfl := Option.some.inj (h.symm.trans found)
        exact fixed truth
      simp [Entries.change, get, truth, Entries.modify_of_fixed same]

/-- Changing the items of a list one by one changes the field, and cannot fail where no item does.
-/
theorem change_items {α : Type} {shows : Document → α → Prop} {es : Entries} {key : String}
    {as : List α} {f : Document → Loose Document} {g : Document → Document}
    (lists : (es.get key).Lists shows as) (each : ∀ d a, shows d a → f d = .ok (g d)) :
    es.change key (Document.changeItems f) = .ok (es.modify key (onItems g)) := by
  obtain ⟨null, -⟩ | ⟨ds, stands, items⟩ := lists
  · refine change_eq_modify (fun truth => ?_) fun _ => by rw [null]; rfl
    rw [null] at truth
    cases truth
  · have run : ds.mapM f = .ok (ds.map g) := mapM_eq_map fun d member => by
      obtain ⟨a, -, h⟩ := exists_of_mem_left items member
      exact each d a h
    refine change_eq_modify (fun _ => ?_) fun truth => ?_
    · simp [stands, Document.changeItems, run, onItems]
    · rw [stands] at truth ⊢
      cases ds with
      | nil => rfl
      | cons d ds => cases truth

/-! ## Retargeting shown documents -/

section

variable {d : Document} {es : Entries}

/-- Rewriting a condition never fails. -/
theorem condition_eq (r : Renaming) (d : Document) :
    r.condition d = .ok (onMap r.inCondition d) := by
  cases d <;> simp [condition, onMap, inCondition, retarget_eq_modify]

/-- A decision that is shown is rewritten without fail. -/
theorem decision_of_shownBy (r : Renaming) {x : Decision} (shown : x.ShownBy es) :
    r.decision es = .ok (r.inDecision es) := by
  have conditions : ((es.modify fallbackKey r.value).get "conditions").Lists Condition.ShownIn
      x.conditions := by
    rw [Entries.get_modify _ (by decide)]
    exact shown.conditions
  rw [decision, retarget_eq_modify]
  exact change_items conditions fun d _ _ => condition_eq r d

/-- So is a function. -/
theorem function_of_shownIn (r : Renaming) {f : NodeFunction} (shown : f.ShownIn d) :
    r.function d = .ok (onMap r.inFunction d) := by
  obtain ⟨es, rfl, shown⟩ := shown
  have decided := shown.decision
  have get : (es.modify targetKey r.value).get "decision" = es.get "decision" :=
    Entries.get_modify _ (by decide)
  simp only [function, retarget_eq_modify, get, onMap, inFunction]
  cases h : f.decision with
  | none =>
    rw [h] at decided
    have fixed : ∀ x, (es.modify targetKey r.value).get? "decision" = some x →
        onMap r.inDecision x = x := fun x found => by
      obtain rfl : x = .null := (Entries.get_of_get? found).symm.trans (get.trans decided)
      rfl
    simp only [show es.get "decision" = .null from decided, Entries.modify_of_fixed fixed]
  | some x =>
    rw [h] at decided
    obtain ⟨ds, stands, shows⟩ := decided
    have found : (es.modify targetKey r.value).get? "decision" = some (.map ds) :=
      Entries.get?_of_get (get.trans stands) (by simp)
    simp [stands, decision_of_shownBy r shows, Entries.modify_of_get? found, onMap]

/-- So is a node. -/
theorem node_of_shownIn (r : Renaming) {n : FlowNode} (shown : n.ShownIn d) :
    r.node d = .ok (onMap r.inNode d) := by
  obtain ⟨es, rfl, -, ds, maps, shown⟩ := shown
  have data : ds.change "functions" r.functions = .ok (r.inData ds) :=
    change_items shown.functions fun _ _ h => function_of_shownIn r h
  simp only [node, Document.entries, ok_bind, onMap, inNode]
  rw [change_eq_modify (g := onMap r.inData)]
  · rfl
  · intro truth
    obtain ⟨null, -⟩ | stands := maps
    · rw [null] at truth
      cases truth
    · simp [stands, data, onMap]
  · intro truth
    obtain ⟨null, -⟩ | stands := maps
    · rw [null]
      rfl
    · rw [stands] at truth ⊢
      cases ds with
      | nil => rfl
      | cons e ds => cases truth

end

end Renaming

/-! ## Nothing to replace -/

theorem total_eq_zero {ns : List Nat} : total ns = 0 ↔ ∀ n ∈ ns, n = 0 := by
  have loop (start : Nat) : ns.foldl (· + ·) start = 0 ↔ start = 0 ∧ ∀ n ∈ ns, n = 0 := by
    induction ns generalizing start with
    | nil => simp
    | cons n ns ih =>
      rw [List.foldl_cons, ih, List.forall_mem_cons, Nat.add_eq_zero_iff, and_assoc]
  rw [total, loop]
  exact and_iff_right rfl

namespace Renaming

variable {r : Renaming} {d : Document} {es : Entries}

/-- A field that does not count as a reference is left as it is. -/
theorem modify_of_countField {key : String} (none : countField r.old key es = 0) :
    es.modify key r.value = es := by
  refine Entries.modify_of_fixed fun d found => ?_
  have other : d.isText r.old = false := by
    simpa [countField, Entries.get_of_get? found] using none
  simp [value, other]

/-- A condition without references is left as it is. -/
theorem onMap_of_countCondition (none : countCondition r.old d = 0) :
    onMap r.inCondition d = d := by
  cases d with
  | map es => exact congrArg Document.map (modify_of_countField none)
  | _ => rfl

theorem onItems_of_count {f : Document → Document} {ds : List Document}
    (each : ∀ d ∈ ds, f d = d) : onItems f (.list ds) = .list ds := by
  simp [onItems, List.map_congr_left each]

/-- So is a decision without references. -/
theorem inDecision_of_count {cs : List Document} (fallback : countField r.old fallbackKey es = 0)
    (read : (es.get "conditions").elementsOrNone = .ok cs)
    (conditions : ∀ c ∈ cs, countCondition r.old c = 0) : r.inDecision es = es := by
  rw [inDecision, modify_of_countField fallback]
  refine Entries.modify_of_fixed fun d found => ?_
  rw [Entries.get_of_get? found] at read
  cases d with
  | list ds =>
    obtain rfl := Except.ok.inj ((Document.elementsOrNone_list ds).symm.trans read)
    exact onItems_of_count fun c member => onMap_of_countCondition (conditions c member)
  | _ => rfl

/-- A function without references to the old id stays as it is. -/
theorem onMap_of_countFunction (none : countFunction r.old d = .ok 0) :
    onMap r.inFunction d = d := by
  cases d with
  | map es =>
    simp only [countFunction] at none
    split at none
    case h_1 decision decided =>
      obtain ⟨cs, read, counted⟩ := bind_eq_ok.1 none
      have zero := Except.ok.inj counted
      have own : countField r.old targetKey es = 0 := by omega
      have fallback : countField r.old fallbackKey decision = 0 := by omega
      have conditions : total (cs.map (countCondition r.old)) = 0 := by omega
      rw [total_eq_zero, List.forall_mem_map] at conditions
      have same := inDecision_of_count fallback read conditions
      refine congrArg Document.map ?_
      rw [inFunction, modify_of_countField own]
      refine Entries.modify_of_fixed fun d found => ?_
      rw [Entries.get_of_get? found] at decided
      rw [decided, onMap, same]
    case h_2 undecided =>
      have own := Except.ok.inj none
      refine congrArg Document.map ?_
      rw [inFunction, modify_of_countField own]
      refine Entries.modify_of_fixed fun d found => ?_
      rw [Entries.get_of_get? found] at undecided
      cases d with
      | map ds => exact absurd rfl (undecided ds)
      | _ => rfl
  | _ => rfl

/-- So are functions without references. -/
theorem onItems_of_countReferences {ds : List Document}
    (none : countReferences r.old (.list ds) = .ok 0) :
    onItems (onMap r.inFunction) (.list ds) = .list ds := by
  obtain ⟨items, elements, none⟩ := bind_eq_ok.1 none
  obtain rfl : ds = items := Except.ok.inj elements
  obtain ⟨counts, run, counted⟩ := bind_eq_ok.1 none
  have zero := Except.ok.inj counted
  rw [mapM_eq_ok] at run
  rw [total_eq_zero] at zero
  refine onItems_of_count fun d member => onMap_of_countFunction ?_
  obtain ⟨count, there, counts⟩ := exists_of_mem_left run member
  rw [counts, zero count there]

/-- References in a function that is shown can be counted. -/
theorem exists_countFunction {f : NodeFunction} (id : String) (shown : f.ShownIn d) :
    ∃ count, countFunction id d = .ok count := by
  obtain ⟨es, rfl, shown⟩ := shown
  have decided := shown.decision
  simp only [countFunction]
  cases h : f.decision with
  | none =>
    rw [h] at decided
    rw [show es.get "decision" = .null from decided]
    exact ⟨_, rfl⟩
  | some x =>
    rw [h] at decided
    obtain ⟨ds, stands, shows⟩ := decided
    obtain ⟨cs, read, -⟩ := shows.conditions.elementsOrNone
    simp [stands, read]

/-- And so in all functions of a node. -/
theorem exists_countReferences {ds : List Document} {fs : List NodeFunction} (id : String)
    (shown : List.Forall₂ NodeFunction.ShownIn ds fs) :
    ∃ count, countReferences id (.list ds) = .ok count := by
  have each : ∀ d ∈ ds, ∃ count, countFunction id d = .ok count := by
    intro d member
    obtain ⟨f, -, shows⟩ := exists_of_mem_left shown member
    exact exists_countFunction id shows
  obtain ⟨counts, run⟩ := exists_mapM each
  exact ⟨total counts, by simp [countReferences, Document.elements, run]⟩

/-! ## Whatever is retargeted -/

/-- A change that succeeds modifies the field, even if it skips a value that counts as absent. -/
theorem eq_modify_of_change {es es' : Entries} {key : String} {f : Document → Loose Document}
    {g : Document → Document} (each : ∀ d', f (es.get key) = .ok d' → d' = g (es.get key))
    (fixed : (es.get key).isTrue = false → g (es.get key) = es.get key)
    (h : es.change key f = .ok es') : es' = es.modify key g := by
  have total : (es.get key).isTrue → f (es.get key) = .ok (g (es.get key)) := by
    intro truth
    simp only [Entries.change, truth, if_true] at h
    obtain ⟨d', made, -⟩ := bind_eq_ok.1 h
    rw [made, each d' made]
  exact Except.ok.inj (h.symm.trans (Renaming.change_eq_modify total fixed))

/-- A value that counts as absent has no items. -/
theorem onItems_of_isTrue_false {g : Document → Document} {d : Document} (h : d.isTrue = false) :
    onItems g d = d := by
  cases d with
  | list ds =>
    obtain rfl : ds = [] := by simpa [Document.isTrue] using h
    rfl
  | _ => rfl

/-- Items changed with success are changed one by one. -/
theorem eq_onItems_of_changeItems {f : Document → Loose Document} {g : Document → Document}
    (each : ∀ d d', f d = .ok d' → d' = g d) {d d' : Document} (h : d.changeItems f = .ok d') :
    d' = onItems g d := by
  unfold Document.changeItems at h
  split at h
  case h_1 ds =>
    obtain ⟨ds', run, h⟩ := bind_eq_ok.1 h
    obtain rfl := Except.ok.inj h
    have same : ds' = ds.map g := by
      simpa using (map_of_forall₂ (f := g) (g := fun d' => d') (mapM_eq_ok.1 run) fun d d' h =>
        (each d d' h).symm).symm
    rw [same, onItems]
  case h_2 other =>
    obtain ⟨-, -, h⟩ := bind_eq_ok.1 h
    obtain rfl := Except.ok.inj h
    cases d with
    | list ds => exact absurd rfl (other ds)
    | _ => rfl

/-- On loose data too, a decision rewritten with success is rewritten throughout. -/
theorem decision_eq_of_ok {es es' : Entries} (h : r.decision es = .ok es') :
    es' = r.inDecision es := by
  rw [decision, retarget_eq_modify] at h
  exact eq_modify_of_change (fun d' made => eq_onItems_of_changeItems (fun d d' one =>
    Except.ok.inj (one.symm.trans (condition_eq r d))) made) onItems_of_isTrue_false h

/-- The same for a function. -/
theorem function_eq_of_ok {d d' : Document} (h : r.function d = .ok d') :
    d' = onMap r.inFunction d := by
  cases d with
  | map es =>
    simp only [function, retarget_eq_modify] at h
    split at h
    case h_1 decision decided =>
      obtain ⟨es', made, h⟩ := bind_eq_ok.1 h
      obtain rfl := Except.ok.inj h
      have found := Entries.get?_of_get decided (by simp)
      rw [decision_eq_of_ok made, onMap, inFunction, Entries.modify_of_get? found, onMap]
    case h_2 undecided =>
      obtain rfl := Except.ok.inj h
      refine congrArg Document.map (Entries.modify_of_fixed fun d found => ?_).symm
      rw [Entries.get_of_get? found] at undecided
      cases d with
      | map ds => exact absurd rfl (undecided ds)
      | _ => rfl
  | _ => exact (Except.ok.inj h).symm

end Renaming

/-! ## Renamed flows -/

def Condition.renamed (c : Condition) (r : Renaming) : Condition :=
  { c with target := r.id c.target }

def Decision.renamed (d : Decision) (r : Renaming) : Decision :=
  { d with conditions := d.conditions.map (·.renamed r), fallback := r.id d.fallback }

def NodeFunction.renamed (f : NodeFunction) (r : Renaming) : NodeFunction :=
  { f with target := f.target.map r.id, decision := f.decision.map (·.renamed r) }

def NodeData.renamed (d : NodeData) (r : Renaming) : NodeData :=
  { d with functions := d.functions.map (·.map (·.renamed r)) }

def FlowNode.renamed (n : FlowNode) (r : Renaming) : FlowNode := { n with data := n.data.renamed r }

@[simp] theorem NodeData.functionList_renamed (d : NodeData) (r : Renaming) :
    (d.renamed r).functionList = d.functionList.map (·.renamed r) := by
  cases h : d.functions <;> simp [functionList, NodeData.renamed, h]

section

variable {d : Document} {es : Entries} (r : Renaming)

/-- A list changed item by item lists the changed items. -/
theorem Document.Lists.onItems {α β : Type} {shows : Document → α → Prop}
    {shows' : Document → β → Prop} {as : List α} {g : Document → Document} {h : α → β}
    (lists : d.Lists shows as) (each : ∀ d a, shows d a → shows' (g d) (h a)) :
    (Document.onItems g d).Lists shows' (as.map h) := by
  obtain ⟨rfl, rfl⟩ | ⟨ds, rfl, items⟩ := lists
  · exact .inl ⟨rfl, rfl⟩
  · refine .inr ⟨ds.map g, rfl, ?_⟩
    rw [List.forall₂_map_left_iff, List.forall₂_map_right_iff]
    exact items.imp each

/-- The rewritten condition shows the renamed one. -/
theorem Condition.ShownIn.renamed {c : Condition} (shown : c.ShownIn d) :
    (c.renamed r).ShownIn (onMap r.inCondition d) := by
  obtain ⟨es, rfl, target⟩ := shown
  refine ⟨_, rfl, ?_⟩
  rw [Renaming.inCondition, Entries.get_modify_self (by simp), target]
  exact Renaming.value_text _

/-- The same for decisions. -/
theorem Decision.ShownBy.renamed {x : Decision} (shown : x.ShownBy es) :
    (x.renamed r).ShownBy (r.inDecision es) where
  fallback := by
    rw [Renaming.inDecision, Entries.get_modify _ (by decide), Entries.get_modify_self (by simp),
      shown.fallback]
    exact Renaming.value_text _
  conditions := by
    rw [Renaming.inDecision, Entries.get_modify_self rfl, Entries.get_modify _ (by decide)]
    exact shown.conditions.onItems fun _ _ h => h.renamed r

/-- The same for functions. -/
theorem NodeFunction.ShownBy.renamed {f : NodeFunction} (shown : f.ShownBy es) :
    (f.renamed r).ShownBy (r.inFunction es) where
  name := by
    rw [Renaming.inFunction, Entries.get_modify _ (by decide), Entries.get_modify _ (by decide)]
    exact shown.name
  target := by
    rw [Renaming.inFunction, Entries.get_modify _ (by decide), Entries.get_modify_self (by simp),
      shown.target]
    cases h : f.target <;> simp [NodeFunction.renamed, h, Document.ofOption]
  decision := by
    rw [Renaming.inFunction, Entries.get_modify_self rfl, Entries.get_modify _ (by decide)]
    have decided := shown.decision
    cases h : f.decision with
    | none =>
      rw [h] at decided
      simp only [NodeFunction.renamed, h, Option.map_none]
      rw [show es.get "decision" = .null from decided]
      rfl
    | some x =>
      rw [h] at decided
      obtain ⟨ds, stands, shows⟩ := decided
      simp only [NodeFunction.renamed, h, Option.map_some, stands]
      exact ⟨_, rfl, shows.renamed r⟩

theorem NodeFunction.ShownIn.renamed {f : NodeFunction} (shown : f.ShownIn d) :
    (f.renamed r).ShownIn (onMap r.inFunction d) := by
  obtain ⟨es, rfl, shown⟩ := shown
  exact ⟨_, rfl, shown.renamed r⟩

/-- The same for the data of a node. -/
theorem NodeData.ShownBy.renamed {x : NodeData} (shown : x.ShownBy es) :
    (x.renamed r).ShownBy (r.inData es) where
  functions := by
    rw [Renaming.inData, Entries.get_modify_self rfl, NodeData.functionList_renamed]
    exact shown.functions.onItems fun _ _ h => h.renamed r
  role := by
    have actions : (r.inData es).get "post_actions" = es.get "post_actions" :=
      Entries.get_modify _ (by decide)
    have messages : (r.inData es).get "role_messages" = es.get "role_messages" :=
      Entries.get_modify _ (by decide)
    have same : (x.renamed r).role = x.role := rfl
    simpa only [Role.derive, actions, messages, same] using shown.role

/-- The same for nodes, whose own id is left alone here. -/
theorem FlowNode.ShownIn.renamed {n : FlowNode} (shown : n.ShownIn d) :
    (n.renamed r).ShownIn (onMap r.inNode d) := by
  obtain ⟨es, rfl, id, ds, maps, shown⟩ := shown
  refine ⟨_, rfl, ?_, r.inData ds, ?_, shown.renamed r⟩
  · have same : (n.renamed r).id = n.id := rfl
    simpa [Renaming.inNode, Entries.get?_modify, same] using id
  · rw [Renaming.inNode, Entries.get_modify_self rfl]
    obtain ⟨null, rfl⟩ | stands := maps
    · exact .inl ⟨by rw [null]; rfl, rfl⟩
    · exact .inr (by rw [stands]; rfl)

theorem FlowNode.ShownIn.renamed_all {ds : List Document} {ns : List FlowNode}
    (shown : List.Forall₂ ShownIn ds ns) :
    List.Forall₂ ShownIn (ds.map (onMap r.inNode)) (ns.map (·.renamed r)) := by
  rw [List.forall₂_map_left_iff, List.forall₂_map_right_iff]
  exact shown.imp fun _ _ h => h.renamed r

end

end Dialogue
