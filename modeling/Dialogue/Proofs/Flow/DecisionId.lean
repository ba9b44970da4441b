import Dialogue.Proofs.Flow.Identifier
import Dialogue.Proofs.Flow.Naming

/-!
# Reading the ids of decision nodes back

The id of a decision node gives back the owner and the function it was put together from when the
owner has no hyphen past its first character, the function is not empty and neither holds a line
feed. A line feed at the end of an id goes unseen, as it does in a name: such an id is read like the
one before the feed, and a function's name with a feed comes back without it.
-/

namespace Dialogue.Identifier

/-- What an id can give back. -/
structure Legible (owner function : String) : Prop where
  hyphen : ∃ c cs, owner.toList = c :: cs ∧ '-' ∉ cs
  owner_feed : '\n' ∉ owner.toList
  function_feed : '\n' ∉ function.toList
  function_ne_empty : function ≠ ""

/-- Names of nodes without hyphens make legible ids. -/
theorem Legible.of_hyphenFree {owner function : String} (free : HyphenFree owner)
    (named : owner ≠ "") (owner_feed : '\n' ∉ owner.toList) (function_feed : '\n' ∉ function.toList)
    (called : function ≠ "") : Legible owner function where
  hyphen := by
    obtain ⟨c, cs, chars⟩ :=
      List.exists_cons_of_ne_nil fun h => named (String.toList_eq_nil_iff.1 h)
    exact ⟨c, cs, chars, fun member => free (chars ▸ List.mem_cons_of_mem c member)⟩
  owner_feed := owner_feed
  function_feed := function_feed
  function_ne_empty := called

/-! ## Splitting at the first hyphen -/

/-- What comes before the first hyphen and what comes after it. -/
theorem split_iff {cs os fs : List Char} (some_after : fs ≠ []) :
    cs.takeWhile (· != '-') = os ∧ (cs.dropWhile (· != '-')).drop 1 = fs ↔
      cs = os ++ '-' :: fs ∧ '-' ∉ os := by
  constructor
  · rintro ⟨rfl, rfl⟩
    have free : '-' ∉ cs.takeWhile (· != '-') := fun member => by
      simpa using List.mem_takeWhile_imp member
    refine ⟨?_, free⟩
    have whole := List.takeWhile_append_dropWhile (p := (· != '-')) (l := cs)
    cases rest : cs.dropWhile (· != '-') with
    | nil => simp [rest] at some_after
    | cons d ds =>
      have stop : d = '-' := by
        have head := List.head?_dropWhile_not (· != '-') cs
        simpa [rest] using head
      rw [rest, stop] at whole
      simpa using whole.symm
  · rintro ⟨rfl, free⟩
    have before : ∀ c ∈ os, (c != '-') = true := fun c member => by
      simpa using fun same : c = '-' => free (same ▸ member)
    simp [List.takeWhile_append_of_pos before, List.dropWhile_append_of_pos before]

/-- Only one line feed goes unseen. -/
theorem dropFinalFeed_eq_iff {cs ds : List Char} (free : '\n' ∉ ds) :
    dropFinalFeed cs = ds ↔ cs = ds ∨ cs = ds ++ ['\n'] := by
  constructor
  · rintro rfl
    unfold dropFinalFeed
    split
    case isTrue feed => exact .inr (List.dropLast_append_getLast? '\n' feed).symm
    case isFalse => exact .inl rfl
  · rintro (rfl | rfl)
    · exact if_neg fun feed => free (List.mem_of_getLast? feed)
    · simp [dropFinalFeed]

/-- Managed ids are those that start with the mark. -/
theorem isManaged_iff {id : String} :
    isManaged id ↔ ∃ body, id.toList = decisionMark.toList ++ body := by
  rw [isManaged, List.isPrefixOf_iff_prefix]
  exact exists_congr fun body => eq_comm

theorem decisionParts?_of_unmanaged {id : String} (h : ¬ isManaged id) :
    decisionParts? id = none := by
  simp [decisionParts?, h]

/-- Nothing is read but what follows the mark. -/
theorem decisionParts?_of_body {id owner function : String} {body : List Char}
    (chars : id.toList = decisionMark.toList ++ body) :
    decisionParts? id = some (owner, function) ↔ Legible owner function ∧
      dropFinalFeed body = owner.toList ++ '-' :: function.toList := by
  have managed : isManaged id := isManaged_iff.2 ⟨body, chars⟩
  have rest : id.toList.drop decisionMark.length = body := by
    rw [chars]
    exact List.drop_left
  simp only [decisionParts?, managed, rest, Bool.not_true, Bool.false_eq_true, if_false]
  cases seen : dropFinalFeed body with
  | nil => simp
  | cons c cs =>
    simp only [Option.ite_none_left_eq_some, Bool.or_eq_true, not_or, List.isEmpty_iff,
      List.contains_iff_mem, Option.some.injEq, Prod.mk.injEq]
    constructor
    · rintro ⟨⟨called, feed⟩, rfl, rfl⟩
      obtain ⟨whole, free⟩ := (split_iff called).1 ⟨rfl, rfl⟩
      rw [whole] at feed
      simp only [List.mem_cons, List.mem_append, not_or] at feed
      refine ⟨⟨⟨c, _, String.toList_ofList, free⟩, ?_, ?_, ?_⟩, ?_⟩
      · simp [feed]
      · simpa using feed.2.2.2
      · simpa [← String.toList_inj] using called
      · simpa using whole
    · rintro ⟨⟨⟨d, ds, owners, free⟩, owner_feed, function_feed, called⟩, whole⟩
      rw [owners, List.cons_append, List.cons.injEq] at whole
      obtain ⟨rfl, whole⟩ := whole
      have after : function.toList ≠ [] := fun h => called (String.toList_eq_nil_iff.1 h)
      obtain ⟨before, behind⟩ := (split_iff after).2 ⟨whole, free⟩
      rw [owners] at owner_feed
      refine ⟨⟨behind ▸ after, ?_⟩, ?_, ?_⟩
      · rw [whole]
        simp_all
      · rw [before, ← owners, String.ofList_toList]
      · rw [behind, String.ofList_toList]

/-- An id gives back what it is put together from, with or without a line feed at the end. -/
theorem decisionParts?_eq_some {id owner function : String} :
    decisionParts? id = some (owner, function) ↔ Legible owner function ∧
      (id = decisionId owner function ∨ id = decisionId owner function ++ "\n") := by
  by_cases managed : isManaged id
  · obtain ⟨body, chars⟩ := isManaged_iff.1 managed
    rw [decisionParts?_of_body chars]
    refine and_congr_right fun legible => ?_
    have free : '\n' ∉ owner.toList ++ '-' :: function.toList := by
      simp [legible.owner_feed, legible.function_feed]
    rw [dropFinalFeed_eq_iff free, ← String.toList_inj, ← String.toList_inj, String.toList_append,
      chars, toList_decisionId]
    simp
  · rw [decisionParts?_of_unmanaged managed]
    have marked := isManaged_decisionId owner function
    have fed : isManaged (decisionId owner function ++ "\n") :=
      isManaged_iff.2 ⟨_, by rw [String.toList_append, toList_decisionId, List.append_assoc]⟩
    grind

/-- A legible id is read back into its parts. -/
theorem decisionParts?_decisionId {owner function : String} (legible : Legible owner function) :
    decisionParts? (decisionId owner function) = some (owner, function) :=
  decisionParts?_eq_some.2 ⟨legible, .inl rfl⟩

/-- A final line feed is not dropped from the front. -/
theorem mem_dropFinalFeed_append {c : Char} {cs ds : List Char} (member : c ∈ cs) (more : ds ≠ []) :
    c ∈ dropFinalFeed (cs ++ ds) := by
  unfold dropFinalFeed
  split
  case isTrue => exact List.dropLast_append_of_ne_nil more ▸ List.mem_append_left _ member
  case isFalse => exact List.mem_append_left ds member

/-- A line feed in the owner stands before the hyphen, so it is seen. -/
theorem decisionParts?_of_owner_feed {owner : String} (function : String)
    (feed : '\n' ∈ owner.toList) : decisionParts? (decisionId owner function) = none := by
  rw [Option.eq_none_iff_forall_ne_some]
  rintro ⟨o, f⟩ read
  obtain ⟨legible, same⟩ := (decisionParts?_of_body (toList_decisionId owner function)).1 read
  have kept := mem_dropFinalFeed_append feed (List.cons_ne_nil '-' function.toList)
  rw [same] at kept
  simp [legible.owner_feed, legible.function_feed] at kept

/-! ## The ids of accepted names -/

/-- A word with a final line feed has one. -/
theorem feed_mem_of_isFedWord {s : String} (fed : IsFedWord s) : '\n' ∈ s.toList := by
  obtain ⟨w, -, rfl⟩ := fed
  simp

theorem isName_of_feedFree {s : String} (h : isIdentifier s) (free : '\n' ∉ s.toList) : IsName s :=
  (isIdentifier_iff.1 h).resolve_right fun fed => free (feed_mem_of_isFedWord fed)

theorem feedFree_of_isWordText {s : String} (word : IsWordText s) : '\n' ∉ s.toList := fun member =>
  absurd (isContinue_of_mem (isWord_iff.2 word) member) (by decide)

/-- Words make legible ids. -/
theorem legible_of_words {owner function : String} (owning : IsWordText owner)
    (called : IsWordText function) : Legible owner function := by
  have free : HyphenFree owner := fun member =>
    absurd (isContinue_of_mem (isWord_iff.2 owning) member) (by decide)
  refine .of_hyphenFree free ?_ (feedFree_of_isWordText owning) (feedFree_of_isWordText called) ?_
  · rintro rfl
    simp [IsWordText] at owning
  · rintro rfl
    simp [IsWordText] at called

/-- An id that can be read gives itself when it is put together again, but for a line feed at its
end. Accepted names come back exactly when neither ends in a line feed. -/
theorem decisionId_readBack (id owner function : String) :
    (decisionParts? id = some (owner, function) ↔ Legible owner function ∧
      (id = decisionId owner function ∨ id = decisionId owner function ++ "\n")) ∧
    (decisionParts? id = some (owner, function) →
      (decisionId owner function = id ↔ id.toList.getLast? ≠ some '\n')) ∧
    (isIdentifier owner → isIdentifier function →
      (decisionParts? (decisionId owner function) = some (owner, function) ↔
        IsName owner ∧ IsName function)) ∧
    (IsFedWord owner → decisionParts? (decisionId owner function) = none) ∧
    (IsName owner → IsWordText function →
      decisionParts? (decisionId owner (function ++ "\n")) = some (owner, function)) := by
  refine ⟨decisionParts?_eq_some, fun read => ?_, fun owning called => ⟨fun read => ?_, ?_⟩, ?_, ?_⟩
  · obtain ⟨legible, rfl | rfl⟩ := decisionParts?_eq_some.1 read
    · refine iff_of_true rfl fun feed => legible.function_feed ?_
      rw [toList_decisionId, ← List.append_assoc, List.getLast?_append_cons] at feed
      simpa using List.mem_of_getLast? feed
    · simp [← String.toList_inj]
  · obtain ⟨legible, -⟩ := decisionParts?_eq_some.1 read
    exact ⟨isName_of_feedFree owning legible.owner_feed,
      isName_of_feedFree called legible.function_feed⟩
  · rintro ⟨owning, called⟩
    exact decisionParts?_decisionId (legible_of_words owning.1 called.1)
  · intro fed
    exact decisionParts?_of_owner_feed function (feed_mem_of_isFedWord fed)
  · intro owning called
    refine decisionParts?_eq_some.2 ⟨legible_of_words owning.1 called, .inr ?_⟩
    simp [decisionId, String.append_assoc]

theorem decisionId_readBack_order :
    (decisionParts? "decision-take_order-choose" = some ("take_order", "choose") ∧
      (decisionId "take_order" "choose" = "decision-take_order-choose" ↔
        "decision-take_order-choose".toList.getLast? ≠ some '\n') ∧
      isIdentifier "take_order" ∧ isIdentifier "choose" ∧
      (decisionParts? (decisionId "take_order" "choose") = some ("take_order", "choose") ↔
        IsName "take_order" ∧ IsName "choose") ∧
      IsName "take_order" ∧ IsWordText "choose" ∧
      decisionParts? (decisionId "take_order" ("choose" ++ "\n")) = some ("take_order", "choose")) ∧
    IsFedWord "take_order\n" ∧ decisionParts? (decisionId "take_order\n" "choose") = none := by
  have read : decisionParts? "decision-take_order-choose" = some ("take_order", "choose") := by
    decide +kernel
  have owning : isIdentifier "take_order" := by decide
  have called : isIdentifier "choose" := by decide
  have owner : IsName "take_order" := ⟨isWord_iff.1 (by decide), by decide⟩
  have function : IsWordText "choose" := isWord_iff.1 (by decide)
  have fed : IsFedWord "take_order\n" := ⟨"take_order", owner.1, rfl⟩
  obtain ⟨-, put, both, -, fedFunction⟩ :=
    decisionId_readBack "decision-take_order-choose" "take_order" "choose"
  obtain ⟨-, -, -, fedOwner, -⟩ := decisionId_readBack "" "take_order\n" "choose"
  exact ⟨⟨read, put read, owning, called, both owning called, owner, function,
    fedFunction owner function⟩, fed, fedOwner fed⟩

/-- The function's name comes back without its line feed, and is then put together to another id. -/
theorem decisionId_feed_lost :
    isIdentifier "a" ∧ isIdentifier "b\n" ∧ decisionId "a" "b\n" = "decision-a-b\n" ∧
      decisionParts? "decision-a-b\n" = some ("a", "b") ∧
      decisionId "a" "b" ≠ "decision-a-b\n" := by
  decide +kernel

end Dialogue.Identifier
