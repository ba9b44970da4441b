import Dialogue.Edit.Duplicate
import Dialogue.Proofs.Document.Entries
import Dialogue.Proofs.Flow.Slug
import Dialogue.Proofs.Json.Number
import Dialogue.Proofs.Json.Text

/-!
# Copies of nodes

The label of a copy is read back as a copy of the same base with its own number, and that number is
above those of all labels there are, so the label is new. Its id is a free slug of the label, and
its data are those of the source, without what would make it an initial node.
-/

namespace Dialogue

namespace Entries

variable {es : Entries} {key other : String}

/-- Erasing a field removes that field and no other. -/
theorem get?_erase :
    (es.erase key).get? other = if key = other then none else es.get? other := by
  induction es with
  | nil => simp [erase]
  | cons e es ih =>
    obtain ⟨k, x⟩ := e
    rw [erase] at ih
    by_cases same : k = .text key
    · subst same
      grind [erase, get?_cons]
    · by_cases found : k = .text other
      · subst found
        have apart : key ≠ other := by grind
        simp [erase, apart, Ne.symm apart]
      · simpa [erase, same, found] using ih

theorem get_erase : (es.erase key).get other = if key = other then .null else es.get other := by
  rw [get, get?_erase]
  split <;> rfl

end Entries

namespace Edit

open Dialogue.Graph (Node)
open Number (decimalDigits)

/-! ## Characters of labels -/

/-- Characters come back from their codes. -/
@[simp] theorem charsOf_codesOf (cs : List Char) : charsOf (codesOf cs) = cs := by
  have same (c : Char) : Scalar.codeChar c.toNat = c := by
    have valid : c.toNat.isValidChar := c.valid
    rw [Scalar.codeChar, if_pos valid, Char.ofNat_toNat]
  rw [charsOf, codesOf, List.map_map]
  exact List.map_id'' same cs

theorem sameLetter_self (c : Char) : Text.sameLetter c c := by simp [Text.sameLetter]

theorem sameCode_self (c : Nat) : sameCode c c := by
  unfold sameCode
  split
  · exact sameLetter_self _
  · simp

/-- A text goes on behind its own beginning. -/
theorem after?_append {α : Type} {same : α → α → Bool} (refl : ∀ a, same a a)
    (start rest : List α) : after? same start (start ++ rest) = some rest := by
  induction start with
  | nil => rfl
  | cons a start ih => simpa [after?, refl a] using ih

/-! ## Marks of copies -/

theorem not_isBlank_of_isDigit {c : Char} (digit : c.isDigit) : Text.isBlank c = false := by
  have place : 48 ≤ c.toNat ∧ c.toNat ≤ 57 := Char.isDigit_iff_toNat.1 digit
  apply Text.not_isBlank_of_ascii <;> omega

/-- One space may be skipped before what is shown. -/
theorem afterBlanks?_space {cs : List Char} (shown : ∀ c ∈ cs.head?, Text.isBlank c = false) :
    afterBlanks? (' ' :: cs) = some cs := by
  have blank : Text.isBlank ' ' := by decide
  rw [afterBlanks?, if_pos blank]
  cases cs with
  | nil => rfl
  | cons c cs => simp [shown c rfl]

/-- No final line feed is dropped behind digits. -/
theorem dropFinalFeed_of_isDigit {cs : List Char} (digits : ∀ c ∈ cs.getLast?, c.isDigit) :
    Identifier.dropFinalFeed cs = cs := by
  apply if_neg
  intro feed
  have digit := digits '\n' feed
  cases digit

theorem mapM_digitValue? {ds : List Char} (digits : ∀ c ∈ ds, c.isDigit) :
    ds.mapM Text.digitValue? = some (ds.map fun c => c.toNat - 0x30) := by
  induction ds with
  | nil => rfl
  | cons c ds ih =>
    have digit : c.isDigit := digits c (.head _)
    have ascii : c.toNat < 0x80 := by
      have place : 48 ≤ c.toNat ∧ c.toNat ≤ 57 := Char.isDigit_iff_toNat.1 digit
      omega
    have value : Text.digitValue? c = some (c.toNat - 0x30) := by
      simp [Text.digitValue?, ascii, digit]
    simp [List.mapM_cons, value, ih fun d member => digits d (.tail _ member)]

theorem afterBlanks?_copyWord (rest : List Char) :
    afterBlanks? (' ' :: (copyWord ++ rest)) = some (copyWord ++ rest) := by
  apply afterBlanks?_space
  intro c first
  obtain rfl : 'c' = c := by simpa [copyWord] using first
  decide

/-- The mark of a first copy is read as one without digits. -/
theorem copyMark?_first : copyMark? (' ' :: copyWord) = some [] := by
  have word := afterBlanks?_copyWord []
  have rest := after?_append sameLetter_self copyWord []
  rw [List.append_nil] at word rest
  simp [copyMark?, word, rest, Identifier.dropFinalFeed]

/-- The mark of a later copy is read as its digits. -/
theorem copyMark?_numbered {ds : List Char} (some : ds ≠ []) (digits : ∀ c ∈ ds, c.isDigit) :
    copyMark? (' ' :: (copyWord ++ ' ' :: ds)) = .some (ds.map fun c => c.toNat - 0x30) := by
  have last : ∀ c ∈ ds.getLast?, c.isDigit := fun c stop => digits c (List.mem_of_getLast? stop)
  have rest := after?_append sameLetter_self copyWord (' ' :: ds)
  have kept : Identifier.dropFinalFeed (' ' :: ds) = ' ' :: ds := by
    apply dropFinalFeed_of_isDigit
    rwa [List.getLast?_cons_of_ne_nil some]
  have number : afterBlanks? (' ' :: ds) = .some ds := by
    apply afterBlanks?_space
    intro c first
    exact not_isBlank_of_isDigit (digits c (List.mem_of_mem_head? first))
  have body : copyDigits? ds = .some (ds.map fun c => c.toNat - 0x30) := by
    have full : ds.isEmpty = false := by simpa using some
    rw [copyDigits?, dropFinalFeed_of_isDigit last, full]
    exact mapM_digitValue? digits
  simp [copyMark?, afterBlanks?_copyWord, rest, kept, number, body]

/-! ## Labels of copies -/

/-- A first copy is recognized with the number one. -/
theorem copyNumber_first (base : List Nat) :
    copyNumber base (base ++ codesOf (' ' :: copyWord)) = .ok 1 := by
  rw [copyNumber, after?_append sameCode_self]
  simp [copyMark?_first]

/-- A numbered copy is recognized with its number, unless that has too many digits. -/
theorem copyNumber_numbered (base : List Nat) {n : Nat}
    (short : (decimalDigits n).length ≤ Number.maxDigits) :
    copyNumber base (base ++ codesOf (' ' :: copyWord) ++ codesOf (' ' :: decimalDigits n)) =
      .ok n := by
  have mark := copyMark?_numbered (Json.decimalDigits_ne_nil n)
    fun c => Json.isDigit_decimalDigits
  have joined : codesOf (' ' :: copyWord) ++ codesOf (' ' :: decimalDigits n) =
      codesOf (' ' :: (copyWord ++ ' ' :: decimalDigits n)) := by
    simp [codesOf]
  rw [copyNumber, List.append_assoc, joined, after?_append sameCode_self, Option.bind_some,
    charsOf_codesOf, mark]
  have value := Json.digitsValue_decimalDigits n
  rw [Json.digitsValue] at value
  have many : ¬ Number.maxDigits < ((decimalDigits n).map fun c => c.toNat - 0x30).length := by
    simpa using short
  split
  case h_1 none => cases none
  case h_2 none => simp [Json.decimalDigits_ne_nil] at none
  case h_3 ds _ same =>
    obtain rfl := Option.some.inj same
    rw [if_neg many, value]

/-- The label of the next copy is a text, and none of the labels there are. -/
theorem nextLabel_fresh {label next : List Nat} {labels : List Document}
    (made : nextLabel label labels = .ok next) :
    next ≠ [] ∧ ∀ d ∈ labels, labelCodes? d ≠ some next := by
  obtain ⟨numbers, counted, made⟩ := bind_eq_ok.1 made
  -- Among the labels its own number would have been counted.
  have among {n : Nat} (own : copyNumber (copyBase label) next = .ok n) {d : Document}
      (member : d ∈ labels) (same : labelCodes? d = some next) : n ≤ numbers.foldl max 0 := by
    obtain ⟨m, there, number⟩ := exists_of_mem_left (mapM_eq_ok.1 counted) member
    rw [labelCodes, same, ok_bind, own] at number
    obtain rfl := Except.ok.inj number
    rw [List.foldl_max]
    have := List.le_max?_getD_of_mem (k := 0) there
    omega
  dsimp only at made
  split at made
  case isTrue none =>
    obtain rfl := Except.ok.inj made
    refine ⟨by simp [codesOf], fun d member same => ?_⟩
    have := among (copyNumber_first _) member same
    omega
  case isFalse =>
    split at made
    case isTrue => cases made
    case isFalse short =>
      obtain rfl := Except.ok.inj made
      refine ⟨by simp [codesOf], fun d member same => ?_⟩
      have := among (copyNumber_numbered _ (Nat.le_of_not_lt short)) member same
      omega

/-- Copies are found whatever their case, and their numbers may start with zeros. -/
example : copyLabel "Node copy 2" [.text "node COPY 07"] = .ok "Node copy 8" := by rfl

/-- A label that is left out, since it counts as false, holds nothing. -/
theorem isTrue_of_labelCodes? {d : Document} {codes : List Nat} (label : labelCodes? d = some codes)
    (some : codes ≠ []) : d.isTrue := by
  cases d with
  | scalar s =>
    cases s with
    | text s =>
      obtain rfl := Option.some.inj label
      simpa [Document.isTrue] using some
    | unpaired codes => rfl
    | _ => cases label
  | _ => cases label

/-- A label comes back from its codes. -/
theorem labelCodes?_ofCodes (codes : List Nat) :
    labelCodes? (.scalar (Scalar.ofCodes codes)) = some codes := by
  rw [labelCodes?, Scalar.ofCodes]
  split
  case isTrue valid =>
    have same : ∀ c ∈ codes, (Char.ofNat c).toNat = c := by
      intro c member
      have point : c.isValidChar := by simpa using List.all_eq_true.1 valid c member
      rw [Char.ofNat, dif_pos point]
      rfl
    have back : (codes.map Char.ofNat).map Char.toNat = codes := by
      rw [List.map_map]
      exact (List.map_congr_left same).trans (List.map_id codes)
    simp [Scalar.codes?, back]
  case isFalse => rfl

/-! ## Roles of copies -/

/-- The role of a node depends on its actions and messages only. -/
theorem derive_congr {es fs : Entries} (actions : fs.get "post_actions" = es.get "post_actions")
    (messages : fs.get "role_messages" = es.get "role_messages") :
    Role.derive (.map fs) = Role.derive (.map es) := by
  rw [Role.derive, Role.derive, actions, messages]

/-- Without their role messages the data of an initial node show a role as well, but another one. -/
theorem derive_erase {es : Entries} (initial : Role.derive (.map es) = .ok .initial) :
    ∃ role, Role.derive (.map (es.erase "role_messages")) = .ok role ∧ role ≠ .initial := by
  obtain ⟨actions, listed, -⟩ := bind_eq_ok.1 initial
  have same : (es.erase "role_messages").get "post_actions" = es.get "post_actions" := by
    rw [Entries.get_erase, if_neg (by decide)]
  have none : (es.erase "role_messages").get "role_messages" = .null := by
    rw [Entries.get_erase, if_pos rfl]
  rw [Role.derive, same, listed, ok_bind, none]
  refine ⟨_, rfl, ?_⟩
  split <;> simp [Document.isTrue]

/-- What a copy starts from: the data of its source, without the role messages of an initial one. -/
theorem copiedData_eq_ok {data copied : Entries} (h : copiedData data = .ok copied) :
    ∃ role, Role.derive (.map data) = .ok role ∧
      copied = (if role = .initial then data.erase "role_messages" else data) ∧
      ∃ role', Role.derive (.map copied) = .ok role' ∧ role' ≠ .initial := by
  obtain ⟨role, derived, h⟩ := bind_eq_ok.1 h
  refine ⟨role, derived, ?_⟩
  cases role with
  | initial =>
    obtain rfl := Except.ok.inj h
    exact ⟨rfl, derive_erase derived⟩
  | plain =>
    obtain rfl := Except.ok.inj h
    exact ⟨rfl, _, derived, by decide⟩
  | final =>
    obtain rfl := Except.ok.inj h
    exact ⟨rfl, _, derived, by decide⟩

/-! ## Copies -/

/-- The code points of a node's label that is a text. -/
def label? (n : Node) : Option (List Nat) := labelCodes? (n.data.get "label")

/-- The label that a copy of a node gets among others. -/
def labelOfCopy (n : Node) (nodes : List Node) : Loose (List Nat) := do
  nextLabel (← labelOf (n.data.get "label"))
    ((nodes.map fun m => m.data.get "label").filter Document.isTrue)

/-- What makes a node a copy of `n` that can stand beside all of `nodes`. -/
structure IsCopy (nodes : List Node) (n copy : Node) : Prop where
  name : Identifier.IsName copy.id
  fresh : copy.id ∉ nodes.map (·.id)
  label : ∃ label, label? copy = some label ∧ ∀ m ∈ nodes, label? m ≠ some label
  kind : ∃ role, Role.derive (.map copy.data) = .ok role ∧ copy.kind = role.name ∧ role ≠ .initial
  data : ∃ role, Role.derive (.map n.data) = .ok role ∧
    copy.data = (if role = .initial then n.data.erase "role_messages" else n.data).put "label"
      (copy.data.get "label")

variable {settings : Settings} {n copy : Node} {nodes : List Node}

/-- The steps of a duplication that gives a copy. -/
theorem stages_of_duplicateNode (h : duplicateNode settings n nodes = .ok copy) :
    ∃ data label role, copiedData n.data = .ok data ∧ labelOfCopy n nodes = .ok label ∧
      copy.data = data.put "label" (.scalar (Scalar.ofCodes label)) ∧
      Identifier.ofLabel (String.ofList (charsOf label)) (nodes.map (·.id))
        settings.suffixAttempts = .ok copy.id ∧
      Role.derive (.map copy.data) = .ok role ∧ copy.kind = role.name := by
  unfold duplicateNode at h
  split at h
  case isTrue => cases h
  case isFalse =>
    obtain ⟨data, copied, h⟩ := bind_eq_ok.1 h
    obtain ⟨source, labelled, h⟩ := bind_eq_ok.1 h
    obtain ⟨label, next, h⟩ := bind_eq_ok.1 h
    obtain ⟨id, free, h⟩ := bind_eq_ok.1 h
    obtain ⟨role, derived, h⟩ := bind_eq_ok.1 h
    obtain rfl := Except.ok.inj h
    refine ⟨data, label, role, lift_eq_ok.1 copied, ?_, rfl, free, lift_eq_ok.1 derived, rfl⟩
    exact bind_eq_ok.2 ⟨source, lift_eq_ok.1 labelled, lift_eq_ok.1 next⟩

/-- No node has the label that a copy is given. -/
theorem labelOfCopy_fresh {label : List Nat} (h : labelOfCopy n nodes = .ok label) :
    ∀ m ∈ nodes, label? m ≠ some label := by
  obtain ⟨source, -, next⟩ := bind_eq_ok.1 h
  obtain ⟨some, fresh⟩ := nextLabel_fresh next
  intro m member same
  apply fresh (m.data.get "label") _ same
  apply List.mem_filter.2
  exact ⟨List.mem_map_of_mem member, isTrue_of_labelCodes? same some⟩

/-- What duplicating gives is a copy. -/
theorem isCopy_of_duplicateNode (h : duplicateNode settings n nodes = .ok copy) :
    IsCopy nodes n copy := by
  obtain ⟨data, label, role, copied, labelled, same, free, derived, kind⟩ :=
    stages_of_duplicateNode h
  obtain ⟨source, initial, kept, role', before, ne⟩ := copiedData_eq_ok copied
  have written : copy.data.get "label" = .scalar (Scalar.ofCodes label) := by
    rw [same, Entries.get_put_self]
  have slug := Identifier.isSlug_slug (String.ofList (charsOf label))
  obtain ⟨fresh, own⟩ := Identifier.disambiguate_eq_ok free
  refine ⟨?_, fresh, ⟨label, ?_, labelOfCopy_fresh labelled⟩, ⟨role, derived, kind, ?_⟩, source,
    initial, ?_⟩
  · rcases own with own | ⟨k, own⟩
    · exact own ▸ slug.isName
    · exact own ▸ Identifier.isName_suffixed slug.isName.1 k
  · rw [label?, written, labelCodes?_ofCodes]
  · -- The label has no part in the role.
    have unlabelled : Role.derive (.map copy.data) = Role.derive (.map data) := by
      rw [same]
      apply derive_congr <;> rw [Entries.get_put, if_neg (by decide)]
    rw [unlabelled, before] at derived
    exact Except.ok.inj derived ▸ ne
  · rw [written, same, kept]

/-- Loose data are never a reason to run out of identifiers. -/
theorem lift_ne_exhausted {α : Type} {x : Loose α} {candidate : String} {attempts : Int} :
    x.lift ≠ .error (.identifiersExhausted candidate attempts) := by
  cases x <;> simp

/-- Ids run out only in the search for one. -/
theorem exhausted_of_duplicateNode {candidate : String} {attempts : Int}
    (h : duplicateNode settings n nodes = .error (.identifiersExhausted candidate attempts)) :
    ∃ label, labelOfCopy n nodes = .ok label ∧
      Identifier.ofLabel (String.ofList (charsOf label)) (nodes.map (·.id))
        settings.suffixAttempts = .error (.identifiersExhausted candidate attempts) := by
  unfold duplicateNode at h
  split at h
  case isTrue => simp at h
  case isFalse =>
    obtain early | ⟨data, -, h⟩ := bind_eq_error.1 h
    · exact absurd early lift_ne_exhausted
    obtain early | ⟨source, labelled, h⟩ := bind_eq_error.1 h
    · exact absurd early lift_ne_exhausted
    obtain early | ⟨label, next, h⟩ := bind_eq_error.1 h
    · exact absurd early lift_ne_exhausted
    obtain search | ⟨id, -, h⟩ := bind_eq_error.1 h
    · refine ⟨label, ?_, search⟩
      exact bind_eq_ok.2 ⟨source, lift_eq_ok.1 labelled, lift_eq_ok.1 next⟩
    · obtain late | ⟨role, -, h⟩ := bind_eq_error.1 h
      · exact absurd late lift_ne_exhausted
      · cases h

/-- Whatever node is duplicated among whatever nodes, what comes of it is a copy that can stand
beside them, and ids run out only when all those that the label of the copy allows are taken. -/
theorem duplicateNode_safe (settings : Settings) (n : Node) (nodes : List Node) :
    (∀ copy, duplicateNode settings n nodes = .ok copy → IsCopy nodes n copy) ∧
      ∀ candidate attempts,
        duplicateNode settings n nodes = .error (.identifiersExhausted candidate attempts) →
        attempts = settings.suffixAttempts ∧
        (∃ label, labelOfCopy n nodes = .ok label ∧
          candidate = Identifier.slug (String.ofList (charsOf label))) ∧
        candidate ∈ nodes.map (·.id) ∧
        ∀ k : Nat, 1 ≤ k → k ≤ attempts → candidate ++ "_" ++ toString k ∈ nodes.map (·.id) := by
  refine ⟨fun copy h => isCopy_of_duplicateNode h, fun candidate attempts h => ?_⟩
  obtain ⟨label, labelled, search⟩ := exhausted_of_duplicateNode h
  obtain ⟨same, taken, all⟩ := Identifier.disambiguate_eq_error_iff.1 search
  obtain ⟨rfl, rfl⟩ := Failure.identifiersExhausted.inj same
  exact ⟨rfl, ⟨label, labelled, rfl⟩, taken, all⟩

end Edit

end Dialogue
