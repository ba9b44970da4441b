import Dialogue.Proofs.Flow.Naming
import Dialogue.Proofs.Text.Strip
import Mathlib.Data.List.Chain

/-!
# Slugs

A slug is made of words of lower-case letters and digits, joined by single underscores. It does not
start with a digit and is no keyword, so it is a name, and slugging it again changes nothing. An id
that is made from a label is the label's slug, or the slug with the least number that makes it free.
-/

namespace Dialogue.Identifier

/-! ## Names made by suffixes -/

/-- No keyword holds an underscore. -/
theorem not_isKeyword_of_underscore {s : String} (joined : '_' ∈ s.toList) :
    isKeyword s = false := by
  have plain : ∀ k ∈ keywords, '_' ∉ k.toList := by decide
  rw [isKeyword, List.contains_eq_mem, decide_eq_false_iff_not]
  exact fun member => plain _ member joined

theorem isWord_suffixed {s : String} (word : isWord s.toList) (n : Nat) :
    isWord (suffixed s n).toList := by
  have digits : ∀ c ∈ Number.decimalDigits n, isContinue c := fun c member => by
    have digit : c.isDigit := Nat.isDigit_of_mem_toDigits (by decide) (by decide) member
    simp [isContinue, Char.isAlphanum, digit]
  cases h : s.toList with
  | nil => simp [h, isWord] at word
  | cons c cs =>
    simp only [h, isWord, Bool.and_eq_true, List.all_eq_true] at word
    simp only [suffixed, String.toList_append, String.toList_ofList, h, List.cons_append, isWord,
      Bool.and_eq_true, List.all_eq_true, List.mem_append]
    refine ⟨word.1, fun d member => ?_⟩
    rcases member with (member | member) | member
    · exact word.2 d member
    · obtain rfl : d = '_' := by simpa using member
      decide
    · exact digits d member

/-- A numbered word is a name, and no keyword. -/
theorem isName_suffixed {s : String} (word : IsWordText s) (n : Nat) : IsName (suffixed s n) := by
  refine ⟨isWord_iff.1 (isWord_suffixed (isWord_iff.2 word) n), ?_⟩
  have joined : '_' ∈ (suffixed s n).toList := by simp [suffixed]
  simpa [isKeyword] using not_isKeyword_of_underscore joined

theorem isIdentifier_suffixed {s : String} (word : IsWordText s) (n : Nat) :
    isIdentifier (suffixed s n) :=
  isIdentifier_iff.2 (.inl (isName_suffixed word n))

/-- What is made of a word to set it apart is an identifier if the word is one. -/
theorem isIdentifier_disambiguate {s id : String} {taken : List String} {attempts : Int}
    (word : IsWordText s) (valid : isIdentifier s) (h : disambiguate s taken attempts = .ok id) :
    isIdentifier id := by
  obtain ⟨-, rfl | ⟨k, rfl⟩⟩ := disambiguate_eq_ok h
  · exact valid
  · exact isIdentifier_suffixed word k

/-! ## The characters of slugs -/

/-- The characters of a slug are small letters, digits and underscores. -/
theorem toNat_slugChar {c : Char} (slug : isSlugChar c) :
    97 ≤ c.toNat ∧ c.toNat ≤ 122 ∨ 48 ≤ c.toNat ∧ c.toNat ≤ 57 ∨ c.toNat = 95 := by
  simp only [isSlugChar, Char.isLower, Char.isDigit, Bool.or_eq_true, Bool.and_eq_true,
    decide_eq_true_eq, beq_iff_eq] at slug
  rcases slug with (⟨low, high⟩ | ⟨low, high⟩) | rfl
  · left
    exact ⟨low, high⟩
  · right; left
    exact ⟨low, high⟩
  · right; right
    rfl

theorem not_isBlank_slugChar {c : Char} (slug : isSlugChar c) : Text.isBlank c = false := by
  have place := toNat_slugChar slug
  apply Text.not_isBlank_of_ascii <;> omega

/-- The characters of slugs are in lower case already. -/
theorem lowerChars_slugChar {c : Char} (slug : isSlugChar c) : Text.lowerChars c = [c] := by
  have ascii : ∀ n < 123, isSlugChar (Char.ofNat n) →
      Text.lowerChars (Char.ofNat n) = [Char.ofNat n] := by
    decide +kernel
  have place := toNat_slugChar slug
  have lower := ascii c.toNat (by omega)
  rw [Char.ofNat_toNat] at lower
  exact lower slug

/-! ## Bodies of slugs -/

/-- Words of lower-case letters and digits, joined by single underscores. -/
structure IsBody (cs : List Char) : Prop where
  slugs : ∀ c ∈ cs, isSlugChar c
  single : cs.IsChain fun c d => ¬(c = '_' ∧ d = '_')
  first : cs.head? ≠ some '_'
  last : cs.getLast? ≠ some '_'

theorem collapse_sublist (cs : List Char) : (collapse cs).Sublist cs := by
  induction cs with
  | nil => exact .refl _
  | cons c cs ih =>
    simp only [collapse]
    split
    case h_1 => exact (List.nil_sublist _).cons_cons c
    case h_2 d ds same =>
      rw [same] at ih
      split
      · exact ih.cons c
      · exact ih.cons_cons c

/-- Nothing else is left of a label. -/
theorem isSlugChar_of_mem_slugBody {c : Char} {label : List Char} (member : c ∈ slugBody label) :
    isSlugChar c := by
  have collapsed := (Text.isInfix_stripWhile _ _).subset member
  obtain ⟨d, -, rfl⟩ := List.mem_map.1 ((collapse_sublist _).subset collapsed)
  split
  · assumption
  · decide

/-- No two underscores are left side by side. -/
theorem isChain_collapse (cs : List Char) :
    (collapse cs).IsChain fun c d => ¬(c = '_' ∧ d = '_') := by
  induction cs with
  | nil => exact .nil
  | cons c cs ih =>
    simp only [collapse]
    split
    case h_1 => exact .singleton c
    case h_2 d ds same =>
      rw [same] at ih
      split
      case isTrue => exact ih
      case isFalse apart => exact .cons_cons apart ih

/-- There is nothing to collapse where no two stand side by side. -/
theorem collapse_eq_self {cs : List Char} (single : cs.IsChain fun c d => ¬(c = '_' ∧ d = '_')) :
    collapse cs = cs := by
  induction cs with
  | nil => rfl
  | cons c cs ih =>
    cases cs with
    | nil => rfl
    | cons d ds =>
      obtain ⟨apart, single⟩ := List.isChain_cons_cons.1 single
      rw [collapse, ih single]
      exact if_neg apart

/-- What is left of a label has the shape of a slug. -/
theorem isBody_slugBody (label : List Char) : IsBody (slugBody label) where
  slugs c member := isSlugChar_of_mem_slugBody member
  single := by
    refine List.IsChain.infix ?_ (Text.isInfix_stripWhile _ _)
    exact isChain_collapse _
  first h := absurd (Text.head?_stripWhile h) (by decide)
  last h := absurd (Text.getLast?_stripWhile h) (by decide)

namespace IsBody

variable {cs ds : List Char}

/-- A text of this shape is left as it is. -/
theorem slugBody_eq_self (body : IsBody cs) : slugBody cs = cs := by
  have lower : cs.flatMap Text.lowerChars = cs := by
    rw [List.flatMap_congr fun c member => lowerChars_slugChar (body.slugs c member)]
    exact List.flatMap_singleton' cs
  have kept : (cs.map fun c => if isSlugChar c then c else '_') = cs := by
    rw [List.map_congr_left fun c member => if_pos (body.slugs c member)]
    exact List.map_id' cs
  simp only [slugBody, lower, kept, collapse_eq_self body.single]
  apply Text.stripWhile_eq_self
  · intro c start
    have := body.first
    grind
  · intro c stop
    have := body.last
    grind

/-- Two bodies joined by an underscore are one body. -/
theorem join (left : IsBody cs) (right : IsBody ds) (some : cs ≠ []) (more : ds ≠ []) :
    IsBody (cs ++ '_' :: ds) where
  slugs := by
    intro c member
    rcases List.mem_append.1 member with member | member
    · exact left.slugs c member
    · rcases List.mem_cons.1 member with rfl | member
      · decide
      · exact right.slugs c member
  single := by
    rw [List.isChain_append, List.isChain_cons]
    refine ⟨left.single, ⟨?_, right.single⟩, ?_⟩
    · rintro d start ⟨-, rfl⟩
      exact right.first start
    · rintro c stop d - ⟨rfl, -⟩
      exact left.last stop
  first := by
    rw [List.head?_append_of_ne_nil _ some]
    exact left.first
  last := by
    rw [List.getLast?_append_cons, List.getLast?_cons_of_ne_nil more]
    exact right.last

end IsBody

/-! ## Slugs are names -/

/-- A body that can be a name as it is. -/
structure IsSlug (s : String) : Prop where
  body : IsBody s.toList
  some : s.toList ≠ []
  start : ∀ c, s.toList.head? = .some c → c.isDigit = false
  free : isKeyword s = false

theorem isBody_node : IsBody "node".toList where
  slugs := by simp [isSlugChar]
  single := by simp
  first := by simp
  last := by simp

theorem isSlug_node : IsSlug "node" where
  body := isBody_node
  some := by decide
  start c first := by
    obtain rfl : 'n' = c := Option.some.inj first
    decide
  free := by decide

/-- A keyword gets a second word, so it is none any more; all else about it stays. -/
theorem isSlug_of_body {s : String} (body : IsBody s.toList) (some : s.toList ≠ [])
    (start : ∀ c, s.toList.head? = .some c → c.isDigit = false) :
    IsSlug (if isKeyword s then s ++ "_node" else s) := by
  split
  case isFalse free => exact ⟨body, some, start, by simpa using free⟩
  case isTrue =>
    have chars : (s ++ "_node").toList = s.toList ++ '_' :: "node".toList := by simp
    refine ⟨?_, ?_, ?_, ?_⟩
    · rw [chars]
      exact body.join isBody_node some (by decide)
    · simp
    · rw [chars, List.head?_append_of_ne_nil _ some]
      exact start
    · exact not_isKeyword_of_underscore (by simp)

/-- It becomes a slug, in front of a digit and behind a keyword too. -/
theorem isSlug_slugOfBody {cs : List Char} (body : IsBody cs) : IsSlug (slugOfBody cs) := by
  unfold slugOfBody
  by_cases digit : cs.head?.any Char.isDigit
  · -- The word in front starts with no digit.
    have some : cs ≠ [] := by
      rintro rfl
      cases digit
    have joined : IsBody ("node_".toList ++ cs) := isBody_node.join body (by decide) some
    have more : ("node_".toList ++ cs).isEmpty = false := by simp
    simp only [digit, if_true, more, Bool.false_eq_true, if_false]
    apply isSlug_of_body
    · simpa using joined
    · simp
    · intro c first
      obtain rfl : 'n' = c := by simpa using first
      decide
  · simp only [digit, Bool.false_eq_true, if_false]
    cases empty : cs.isEmpty with
    | true => exact isSlug_node
    | false =>
      simp only [Bool.false_eq_true, if_false]
      apply isSlug_of_body
      · simpa using body
      · simpa using empty
      · intro c first
        simp only [String.toList_ofList] at first
        simpa [first] using digit

/-- Every label gives a slug. -/
theorem isSlug_slug (label : String) : IsSlug (slug label) := by
  unfold slug
  split
  · exact isSlug_node
  · exact isSlug_slugOfBody (isBody_slugBody _)

namespace IsSlug

variable {s : String}

/-- A slug is its own slug. -/
theorem slug_eq_self (h : IsSlug s) : slug s = s := by
  obtain ⟨c, cs, chars⟩ := List.exists_cons_of_ne_nil h.some
  have first : s.toList.head? = .some c := by rw [chars]; rfl
  have shown : s.toList.all Text.isBlank = false := by
    have blank := not_isBlank_slugChar (h.body.slugs c (by simp [chars]))
    simp [chars, blank]
  have digit : s.toList.head?.any Char.isDigit = false := by simp [first, h.start c first]
  have some : s.toList.isEmpty = false := by simp [chars]
  simp [slug, shown, h.body.slugBody_eq_self, slugOfBody, digit, some, h.free]

/-- A slug is a name. -/
theorem isName (h : IsSlug s) : IsName s := by
  obtain ⟨c, cs, chars⟩ := List.exists_cons_of_ne_nil h.some
  have digit := h.start c (by rw [chars]; rfl)
  have slugs : isSlugChar c ∧ ∀ d ∈ cs, isSlugChar d := by
    simpa [chars] using h.body.slugs
  refine ⟨⟨c, cs, chars, ?_, ?_⟩, by simpa [isKeyword] using h.free⟩
  · apply isStart_iff.1
    have := slugs.1
    grind [isSlugChar, isStart, Char.isAlpha]
  · intro d member
    apply isContinue_iff.1
    have := slugs.2 d member
    grind [isSlugChar, isContinue, Char.isAlphanum, Char.isAlpha]

end IsSlug

/-! ## Ids made from labels -/

theorem suffixed_eq (s : String) (n : Nat) : suffixed s n = s ++ "_" ++ toString n := rfl

/-- A free id is the candidate, or the candidate with the least number that makes it free. -/
theorem disambiguate_eq_ok_iff {candidate id : String} {taken : List String} {attempts : Int} :
    disambiguate candidate taken attempts = .ok id ↔
      candidate ∉ taken ∧ id = candidate ∨
      candidate ∈ taken ∧ ∃ n : Nat, 1 ≤ n ∧ n ≤ attempts ∧ id = suffixed candidate n ∧
        id ∉ taken ∧ ∀ k, 1 ≤ k → k < n → suffixed candidate k ∈ taken := by
  by_cases member : candidate ∈ taken
  · simp only [disambiguate, List.contains_iff_mem.2 member, Bool.not_true, Bool.false_eq_true,
      if_false, member, not_true, false_and, true_and, false_or]
    cases found : firstFree? candidate taken 1 attempts.toNat with
    | none =>
      have all := firstFree?_eq_none.1 found
      refine ⟨fun made => (by cases made), ?_⟩
      rintro ⟨n, least, reach, rfl, free, -⟩
      exact absurd (all n least (by omega)) free
    | some made =>
      obtain ⟨n, least, reach, rfl, free, earlier⟩ := firstFree?_eq_some found
      simp only [Except.ok.injEq]
      constructor
      · rintro rfl
        exact ⟨n, least, by omega, rfl, free, earlier⟩
      · -- Of two such numbers neither is less, since what is less is taken.
        rintro ⟨m, least', -, rfl, free', earlier'⟩
        rcases Nat.lt_trichotomy n m with less | rfl | more
        · exact absurd (earlier' n least less) free
        · rfl
        · exact absurd (earlier m least' more) free'
  · simp [disambiguate, member, eq_comm]

/-- The search fails just when the slug and all its numbered forms are taken. -/
theorem disambiguate_eq_error_iff {candidate : String} {taken : List String} {attempts : Int}
    {e : Failure} : disambiguate candidate taken attempts = .error e ↔
      e = .identifiersExhausted candidate attempts ∧ candidate ∈ taken ∧
        ∀ k : Nat, 1 ≤ k → k ≤ attempts → suffixed candidate k ∈ taken := by
  rw [← disambiguate_fails_iff]
  constructor
  · intro fails
    refine ⟨?_, e, fails⟩
    unfold disambiguate at fails
    grind
  · rintro ⟨rfl, e, fails⟩
    rw [fails]
    unfold disambiguate at fails
    grind

/-- An id made from a label is a name that is free: the slug of the label, which is its own slug, or
the slug with the least number that will do. There is none just when all of these are taken. -/
theorem ofLabel_least_free (label : Option String) (taken : List String) (attempts : Int) :
    ∃ slug : String, slug = Identifier.slug (label.getD "") ∧ IsName slug ∧
      ofLabel slug [] attempts = .ok slug ∧
      (∀ id, ofLabel (label.getD "") taken attempts = .ok id → IsName id ∧ id ∉ taken) ∧
      (∀ id, ofLabel (label.getD "") taken attempts = .ok id ↔
        slug ∉ taken ∧ id = slug ∨
        slug ∈ taken ∧ ∃ n : Nat, 1 ≤ n ∧ n ≤ attempts ∧ id = slug ++ "_" ++ toString n ∧
          id ∉ taken ∧ ∀ k : Nat, 1 ≤ k → k < n → slug ++ "_" ++ toString k ∈ taken) ∧
      ∀ e, ofLabel (label.getD "") taken attempts = .error e ↔
        e = .identifiersExhausted slug attempts ∧ slug ∈ taken ∧
          ∀ k : Nat, 1 ≤ k → k ≤ attempts → slug ++ "_" ++ toString k ∈ taken := by
  have isSlug := isSlug_slug (label.getD "")
  refine ⟨_, rfl, isSlug.isName, ?_, ?_, ?_, ?_⟩
  · rw [ofLabel, isSlug.slug_eq_self]
    exact disambiguate_eq_ok_iff.2 (.inl ⟨List.not_mem_nil, rfl⟩)
  · intro id made
    obtain ⟨free, rfl | ⟨n, rfl⟩⟩ := disambiguate_eq_ok made
    · exact ⟨isSlug.isName, free⟩
    · exact ⟨isName_suffixed isSlug.isName.1 n, free⟩
  · intro id
    simp only [← suffixed_eq]
    exact disambiguate_eq_ok_iff
  · intro e
    simp only [← suffixed_eq]
    exact disambiguate_eq_error_iff

end Dialogue.Identifier
