import Dialogue.Proofs.Flow.Reread
import Dialogue.Proofs.Flow.Routing
import Mathlib

/-!
# Names that a flow may have

The names that the generated module can define are ASCII words that are no keywords. These count as
identifiers, and beside them every word with one line feed after it, keywords too. Whatever names an
accepted flow has are of one kind or the other.
-/

namespace Dialogue

namespace Identifier

/-- An ASCII letter or an underscore. -/
def IsLetter (c : Char) : Prop := 'a' ≤ c ∧ c ≤ 'z' ∨ 'A' ≤ c ∧ c ≤ 'Z' ∨ c = '_'

/-- An ASCII digit. -/
def IsDigit (c : Char) : Prop := '0' ≤ c ∧ c ≤ '9'

/-- Over its whole length a letter and then letters and digits. -/
def IsWordText (s : String) : Prop :=
  ∃ c cs, s.toList = c :: cs ∧ IsLetter c ∧ ∀ d ∈ cs, IsLetter d ∨ IsDigit d

/-- A name that the generated module can define. -/
def IsName (s : String) : Prop := IsWordText s ∧ s ∉ keywords

/-- A word, or even a keyword, with a line feed after it. -/
def IsFedWord (s : String) : Prop := ∃ w, IsWordText w ∧ s = w ++ "\n"

theorem isStart_iff {c : Char} : isStart c ↔ IsLetter c := by
  simp only [isStart, Char.isAlpha, Char.isUpper, Char.isLower, Bool.or_eq_true, beq_iff_eq,
    Bool.and_eq_true, decide_eq_true_eq, IsLetter]
  constructor
  · rintro ((h | h) | h)
    · exact .inr (.inl h)
    · exact .inl h
    · exact .inr (.inr h)
  · rintro (h | h | h)
    · exact .inl (.inr h)
    · exact .inl (.inl h)
    · exact .inr h

theorem isContinue_iff {c : Char} : isContinue c ↔ IsLetter c ∨ IsDigit c := by
  have digit : c.isDigit ↔ IsDigit c := by simp [Char.isDigit, IsDigit]; rfl
  rw [← isStart_iff, ← digit]
  simp only [isContinue, isStart, Char.isAlphanum, Bool.or_eq_true]
  tauto

/-- What counts as a word are letters and digits that start with a letter. -/
theorem isWord_iff {s : String} : isWord s.toList ↔ IsWordText s := by
  cases h : s.toList with
  | nil => simp [isWord, IsWordText, h]
  | cons c cs => simp [isWord, IsWordText, h, isStart_iff, isContinue_iff]

theorem feed_not_continue : isContinue '\n' = false := by decide

/-- No keyword ends in a line feed. -/
theorem not_isKeyword_feed (w : String) : isKeyword (w ++ "\n") = false := by
  have ends : ∀ k ∈ keywords, k.toList.getLast? ≠ some '\n' := by decide
  rw [isKeyword, List.contains_eq_mem, decide_eq_false_iff_not]
  intro member
  exact ends _ member (by simp)

/-- No name ends in a line feed. -/
theorem not_isName_feed (w : String) : ¬ IsName (w ++ "\n") := by
  rintro ⟨word, -⟩
  have continues := isContinue_of_mem (isWord_iff.2 word) (show '\n' ∈ (w ++ "\n").toList by simp)
  exact absurd continues (by simp [feed_not_continue])

/-- What counts as an identifier are names, and words before a line feed. -/
theorem isIdentifier_iff {s : String} : isIdentifier s ↔ IsName s ∨ IsFedWord s := by
  by_cases feed : s.toList.getLast? = some '\n'
  · -- The feed goes unseen, and what is before it is looked at alone.
    obtain ⟨w, rfl⟩ : ∃ w, s = w ++ "\n" := by
      refine ⟨String.ofList s.toList.dropLast, String.toList_inj.1 ?_⟩
      simpa using (List.dropLast_append_getLast? '\n' feed).symm
    have before : dropFinalFeed (w ++ "\n").toList = w.toList := by simp [dropFinalFeed]
    have fed : IsFedWord (w ++ "\n") ↔ IsWordText w := by
      refine ⟨fun ⟨v, word, same⟩ => ?_, fun word => ⟨w, word, rfl⟩⟩
      obtain rfl : w = v := by simpa using same
      exact word
    simp only [isIdentifier, before, not_isKeyword_feed, Bool.not_false, Bool.and_true, isWord_iff,
      not_isName_feed, false_or, fed]
  · have whole : dropFinalFeed s.toList = s.toList := by simp [dropFinalFeed, feed]
    have notFed : ¬ IsFedWord s := by
      rintro ⟨w, -, rfl⟩
      exact feed (by simp)
    simp only [isIdentifier, whole, Bool.and_eq_true, isWord_iff, notFed, or_false, IsName,
      isKeyword, Bool.not_eq_true', List.contains_eq_mem, decide_eq_false_iff_not]

end Identifier

/-! ## The names of a flow -/

/-- The name of a function and those of its properties. -/
def Signature.names (s : Signature) : List String := s.name :: (s.properties.getD []).map (·.1)

/-- The ids of the nodes, and the names of all functions and of their properties. -/
def Flow.names (f : Flow) : List String :=
  f.ids ++ f.nodes.flatMap (fun n => n.data.functionList.flatMap (·.toSignature.names)) ++
    (f.globalFunctions.getD []).flatMap Signature.names

namespace Reading

variable {α : Type} {es : Entries} {d : Document}

/-- A function and its properties are called by identifiers. -/
theorem identifiers_of_signature {s : Signature} (h : signatureOf es = .ok s) :
    ∀ name ∈ s.names, Identifier.isIdentifier name := by
  have own := (name_of_signature h).2
  simp only [signatureOf, Checked.functor_map_eq, Checked.seq_eq_ok, Checked.map_eq_ok,
    Checked.exists_exists_and_and, exists_eq_left'] at h
  obtain ⟨name, -, description, -, properties, taken, required, -, rfl⟩ := h
  rw [Signature.names, List.forall_mem_cons, List.forall_mem_map]
  refine ⟨own, ?_⟩
  obtain ⟨-, rfl⟩ | ⟨d, ps, -, -, read, rfl⟩ := optional_eq_ok.1 taken
  · exact List.forall_mem_nil _
  · exact (properties_eq_ok.1 read).2

theorem identifiers_of_nodeFunction {g : NodeFunction} (h : nodeFunction d = .ok g) :
    ∀ name ∈ g.toSignature.names, Identifier.isIdentifier name := by
  simp only [nodeFunction, record_eq_ok, Checked.functor_map_eq, Checked.seq_eq_ok,
    Checked.map_eq_ok, Checked.exists_exists_and_and, exists_eq_left'] at h
  obtain ⟨es, -, signature, signed, target, -, decision, -, rfl⟩ := h
  exact identifiers_of_signature signed

/-- What holds of all items of a list that may be left out. -/
theorem forall_of_optional {key : String} {read : Reading α} {p : α → Prop} {o : Option (List α)}
    (each : ∀ d a, read d = .ok a → p a) (h : optional es key (listOf read) = .ok o) :
    ∀ a ∈ o.getD [], p a :=
  (lists_of_optional (R := fun _ a => p a) each h).forall_mem

theorem identifiers_of_node {n : FlowNode} (h : node d = .ok n) :
    ∀ g ∈ n.data.functionList, ∀ name ∈ g.toSignature.names, Identifier.isIdentifier name := by
  simp only [node, record_eq_ok, Checked.functor_map_eq, Checked.seq_eq_ok, Checked.map_eq_ok,
    Checked.exists_exists_and_and, exists_eq_left'] at h
  obtain ⟨es, -, id, -, role, -, position, -, data, told, rfl⟩ := h
  obtain ⟨-, rfl⟩ | ⟨d, -, read⟩ := defaulting_eq_ok.1 told
  · exact List.forall_mem_nil _
  · simp only [nodeData, record_eq_ok, Checked.functor_map_eq, Checked.seq_eq_ok, Checked.map_eq_ok,
      Checked.exists_exists_and_and, exists_eq_left'] at read
    obtain ⟨es, -, label, -, roleMessages, -, taskMessages, -, functions, called, preActions, -,
      postActions, -, strategy, -, respond, -, others, -, rfl⟩ := read
    exact forall_of_optional (fun _ _ => identifiers_of_nodeFunction) called

theorem identifiers_of_globalFunction {s : Signature} (h : globalFunction d = .ok s) :
    ∀ name ∈ s.names, Identifier.isIdentifier name := by
  obtain ⟨es, -, signed⟩ := record_eq_ok.1 h
  exact identifiers_of_signature signed

end Reading

/-- All names in an accepted flow are identifiers. -/
theorem Flow.identifiers_of_check {d : Document} {f : Flow} (h : Flow.check d = .ok f) :
    ∀ name ∈ f.names, Identifier.isIdentifier name := by
  have ids := (Flow.shownIn_of_check h).2.isIdentifier
  have nodes := (Flow.parts_of_check h).1
  simp only [Flow.check, Checked.toExcept_eq_ok, Reading.flow, Reading.record_eq_ok,
    Checked.functor_map_eq, Checked.seq_eq_ok, Checked.map_eq_ok, Checked.exists_exists_and_and,
    exists_eq_left'] at h
  obtain ⟨es, -, uri, -, id, -, info, -, context, -, globals, shared, _, -, _, -, none, -, rfl⟩ := h
  simp only [Flow.names, List.forall_mem_append, List.forall_mem_flatMap]
  refine ⟨⟨ids, fun n member => ?_⟩, ?_⟩
  · obtain ⟨d, read⟩ := nodes n member
    exact Reading.identifiers_of_node read
  · exact Reading.forall_of_optional (fun _ _ => Reading.identifiers_of_globalFunction) shared

/-- What counts as an identifier is told exactly, and so are all names of an accepted flow: they can
be defined by the generated module but for those with a line feed at the end. -/
theorem Flow.names_of_check {d : Document} {f : Flow} (h : Flow.check d = .ok f) :
    (∀ s, Identifier.isIdentifier s ↔ Identifier.IsName s ∨ Identifier.IsFedWord s) ∧
      (∀ name ∈ f.names, Identifier.IsName name ∨ Identifier.IsFedWord name) ∧
      ∀ name ∈ f.names, Identifier.IsName name ↔ ¬ Identifier.IsFedWord name := by
  have kinds : ∀ name ∈ f.names, Identifier.IsName name ∨ Identifier.IsFedWord name :=
    fun name member => Identifier.isIdentifier_iff.1 (Flow.identifiers_of_check h name member)
  refine ⟨fun s => Identifier.isIdentifier_iff, kinds, fun name member => ⟨?_, ?_⟩⟩
  · rintro isName ⟨w, -, rfl⟩
    exact Identifier.not_isName_feed w isName
  · exact (kinds name member).resolve_right

theorem Flow.names_of_check_sample : Flow.check sample.document = .ok sample ∧
    (∀ s, Identifier.isIdentifier s ↔ Identifier.IsName s ∨ Identifier.IsFedWord s) ∧
      (∀ name ∈ sample.names, Identifier.IsName name ∨ Identifier.IsFedWord name) ∧
      ∀ name ∈ sample.names, Identifier.IsName name ↔ ¬ Identifier.IsFedWord name :=
  ⟨Flow.check_sample, Flow.names_of_check Flow.check_sample⟩

/-! ## A name that cannot be defined -/

/-- The names of this flow are the keyword `def` and a word, each before a line feed. -/
def Flow.fed : Flow where
  info := { name := "Sample", version := "1.0.0" }
  nodes := [
    { id := "a\n"
      role := .plain
      position := ⟨0.0, 0.0⟩
      data := { functions := some [{ name := "def\n", description := "" }] } }]
  edges := []

/-- Both names are let through, though the module cannot define them. -/
theorem Flow.fed_accepted : Flow.check fed.document = .ok fed ∧ fed.names = ["a\n", "def\n"] ∧
    (∀ name ∈ fed.names, Identifier.isIdentifier name) ∧
    ∀ name ∈ fed.names, ¬ Identifier.IsName name := by
  have accepted : Flow.check fed.document = .ok fed := rfl
  refine ⟨accepted, rfl, Flow.identifiers_of_check accepted, ?_⟩
  have names : fed.names = ["a" ++ "\n", "def" ++ "\n"] := rfl
  rw [names, List.forall_mem_cons, List.forall_mem_singleton]
  exact ⟨Identifier.not_isName_feed "a", Identifier.not_isName_feed "def"⟩

end Dialogue
