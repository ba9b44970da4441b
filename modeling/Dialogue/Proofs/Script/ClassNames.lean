import Dialogue.Proofs.Script.SharedTypes
import Dialogue.Script.Module

/-!
# Names of classes

The name of a result type starts with the first character of a function's name that is no
underscore. That may be a digit, and a name made of underscores alone leaves nothing but the number
in front; in all other cases the type has a name that the module can define.
-/

namespace Dialogue.Script

open Identifier (IsDigit IsLetter IsName IsWordText isContinue)

/-! ## Stems -/

/-- The words of a name, each with a capital first. -/
def stemChars (cs : List Char) : List Char := (cs.splitOn '_').flatMap capitalize

theorem toList_typeStem (s : String) : (typeStem s).toList = stemChars s.toList :=
  String.toList_ofList

/-- Underscores leave no trace. -/
theorem stemChars_underscore (cs : List Char) : stemChars ('_' :: cs) = stemChars cs := by
  rw [stemChars, List.splitOn_cons_eq_if_modifyHead, if_pos (by simp), List.flatMap_cons]
  rfl

/-- Underscores in front say nothing for a stem. -/
theorem stemChars_dropWhile (cs : List Char) :
    stemChars cs = stemChars (cs.dropWhile (· == '_')) := by
  induction cs with
  | nil => rfl
  | cons c cs ih =>
    by_cases under : c = '_'
    · subst under
      rw [stemChars_underscore, ih]
      rfl
    · rw [List.dropWhile_cons_of_neg (by simpa using under)]

/-- Any other character comes first in capital. -/
theorem exists_stemChars {c : Char} (other : c ≠ '_') (cs : List Char) :
    ∃ rest, stemChars (c :: cs) = Text.upperChars c ++ rest := by
  rw [stemChars, List.splitOn_cons_eq_if_modifyHead, if_neg (by simpa using other)]
  obtain ⟨w, ws, pieces⟩ := List.exists_cons_of_ne_nil (List.splitOn_ne_nil '_' cs)
  rw [pieces, List.modifyHead_cons, List.flatMap_cons, capitalize, List.append_assoc]
  exact ⟨_, rfl⟩

/-- The first character of a name that is no underscore. -/
def leading (s : String) : Option Char := (s.toList.dropWhile (· == '_')).head?

theorem typeStem_of_leading_none {s : String} (none : leading s = none) : typeStem s = "" := by
  rw [leading, List.head?_eq_none_iff] at none
  rw [← String.toList_inj, toList_typeStem, stemChars_dropWhile, none]
  rfl

/-- The stem starts with a digit just if the leading character is one. -/
theorem head?_typeStem {s : String} (word : ∀ c ∈ s.toList, isContinue c) {c : Char}
    (leads : leading s = some c) :
    ∃ u, (typeStem s).toList.head? = some u ∧ Identifier.isStart u = Identifier.isStart c := by
  obtain ⟨cs, left⟩ := List.head?_eq_some_iff.1 leads
  have other : c ≠ '_' := by
    have first := List.head?_dropWhile_not (· == '_') s.toList
    rw [left] at first
    simpa using first
  have member : c ∈ s.toList := (List.dropWhile_suffix _).subset (by rw [left]; exact .head _)
  obtain ⟨u, upper, -, start⟩ := upperChars_word (word c member)
  obtain ⟨rest, stem⟩ := exists_stemChars other cs
  refine ⟨u, ?_, start⟩
  rw [toList_typeStem, stemChars_dropWhile, left, stem, upper]
  rfl

/-! ## Names -/

theorem isDigit_iff {c : Char} : c.isDigit ↔ IsDigit c := by
  simp only [Char.isDigit, IsDigit, Bool.and_eq_true, decide_eq_true_eq]
  rfl

theorem not_isLetter_of_isDigit {c : Char} (digit : IsDigit c) : ¬IsLetter c := by
  rintro (⟨low, -⟩ | ⟨low, -⟩ | rfl)
  · exact absurd (low.trans digit.2) (by decide)
  · exact absurd (low.trans digit.2) (by decide)
  · exact absurd digit.2 (by decide)

/-- Of what may stand in a name only digits may not stand first. -/
theorem isStart_iff_not_isDigit {c : Char} (word : isContinue c) :
    Identifier.isStart c ↔ ¬IsDigit c := by
  rw [Identifier.isStart_iff]
  refine ⟨fun letter digit => not_isLetter_of_isDigit digit letter, fun other => ?_⟩
  exact (Identifier.isContinue_iff.1 word).resolve_right other

/-- What ends in the word for results is no keyword, so that its first character decides. -/
theorem isName_resultWord {p : String} (word : ∀ c ∈ p.toList, isContinue c) :
    IsName (p ++ resultWord) ↔ ∀ c ∈ p.toList.head?, Identifier.isStart c := by
  have notKeyword : p ++ resultWord ∉ Identifier.keywords := by
    have ends : ∀ k ∈ Identifier.keywords, ¬resultWord.toList <:+ k.toList := by decide
    exact fun keyword => ends _ keyword ⟨p.toList, (String.toList_append ..).symm⟩
  have result : Identifier.isWord resultWord.toList ∧ resultWord.toList.all isContinue := by decide
  rw [IsName, ← Identifier.isWord_iff, String.toList_append]
  cases chars : p.toList with
  | nil => simpa [notKeyword] using result.1
  | cons c cs =>
    rw [chars, List.forall_mem_cons] at word
    have rest : (cs ++ resultWord.toList).all isContinue := by
      rw [List.all_eq_true, List.forall_mem_append]
      exact ⟨word.2, List.all_eq_true.1 result.2⟩
    simp [Identifier.isWord, rest, notKeyword]

namespace Registry

/-- Whether a name with a number is a class name is up to the first character. -/
theorem isName_numbered {stem : String} (word : ∀ c ∈ stem.toList, isContinue c) (n : Nat) :
    IsName (numbered stem n) ↔ ∃ c ∈ stem.toList.head?, Identifier.isStart c := by
  have digits : (toString n).toList = Nat.toDigits 10 n := by
    rw [Nat.toString_eq_ofList_toDigits, String.toList_ofList]
  have digit {c : Char} (member : c ∈ Nat.toDigits 10 n) : c.isDigit :=
    Nat.isDigit_of_mem_toDigits (by decide) (by decide) member
  have whole : ∀ c ∈ (stem ++ toString n).toList, isContinue c := by
    rw [String.toList_append, List.forall_mem_append, digits]
    exact ⟨word, fun c member => by simp [isContinue, Char.isAlphanum, digit member]⟩
  rw [numbered, isName_resultWord whole, String.toList_append, digits]
  cases chars : stem.toList with
  | nil =>
    -- The number comes first.
    obtain ⟨c, cs, first⟩ := List.exists_cons_of_ne_nil (Nat.toDigits_ne_nil (b := 10) (n := n))
    have isDigit : c.isDigit := digit (by rw [first]; exact .head _)
    have notStart : Identifier.isStart c = false := by
      rw [← Bool.not_eq_true, isStart_iff_not_isDigit (by simp [isContinue, Char.isAlphanum, isDigit]),
        not_not]
      exact isDigit_iff.1 isDigit
    simp [first, notStart]
  | cons c cs => simp

/-- The types of functions whose names are no keywords can be defined under their names just if
the leading characters of these are no digits, and unless a name of underscores alone has been
numbered. -/
theorem isName_className (reserved : List String) {fs : List Signature}
    (named : ∀ f ∈ fs, IsName f.name) {t : ResultType} (member : t ∈ ofFunctions reserved fs) :
    IsName t.name ↔ match leading t.function with
      | some c => ¬IsDigit c
      | none => t.name = typeName t.function := by
  obtain ⟨f, among, before, rfl⟩ := exists_of_mem_ofFunctions member
  have word : ∀ c ∈ f.name.toList, isContinue c := fun c member =>
    Identifier.isContinue_of_mem (Identifier.isWord_iff.2 (named f among).1) member
  have stem : ∀ c ∈ (typeStem f.name).toList, isContinue c := by
    refine forall_mem_typeStem (fun c word u member => ?_) word
    obtain ⟨v, upper, continues, -⟩ := upperChars_word word
    rw [upper, List.mem_singleton] at member
    exact member ▸ continues
  have made : (fresh reserved before f).name = typeName f.name ∨
      ∃ n, (fresh reserved before f).name = numbered (typeStem f.name) n := chooseName_eq _ f.name
  have function : (fresh reserved before f).function = f.name := rfl
  generalize (fresh reserved before f).name = name at made ⊢
  rw [function]
  cases leads : leading f.name with
  | some c =>
    obtain ⟨u, first, start⟩ := head?_typeStem word leads
    have belongs : isContinue c := word c (List.dropWhile_suffix _ |>.subset
      (List.mem_of_mem_head? leads))
    have digit := isStart_iff_not_isDigit belongs
    obtain rfl | ⟨n, rfl⟩ := made
    · rw [typeName, isName_resultWord stem, first]
      simpa [start] using digit
    · rw [isName_numbered stem, first]
      simpa [start] using digit
  | none =>
    have empty := typeStem_of_leading_none leads
    obtain rfl | ⟨n, rfl⟩ := made
    · exact iff_of_true ((isName_resultWord stem).2 (by simp [empty])) rfl
    · rw [isName_numbered stem, typeName, empty]
      refine iff_of_false (by simp) fun same => ?_
      have digits : (toString n).toList = [] := by
        simpa [numbered] using congrArg String.toList same
      rw [Nat.toString_eq_ofList_toDigits, String.toList_ofList] at digits
      exact Nat.toDigits_ne_nil digits

/-- Functions whose names start with an underscore, or are nothing else. -/
def terse : List Signature := [
  { name := "_py", description := "", properties := some [("path", { type := "string" })] },
  { name := "_1", description := "", properties := some [("age", { type := "number" })] },
  { name := "_", description := "", properties := some [("age", { type := "number" })] },
  { name := "_", description := "", properties := some [("path", { type := "string" })] }]

theorem names_terse : (∀ f ∈ terse, IsName f.name) ∧
    (ofFunctions (hostImports ++ contextImports) terse).map (fun t => (t.name, t.function)) =
      [("PyResult", "_py"), ("1Result", "_1"), ("Result", "_"), ("2Result", "_")] := by
  constructor
  · simp only [IsName, ← Identifier.isWord_iff]
    decide
  · decide +kernel

theorem isName_className_py : (∀ f ∈ terse, IsName f.name) ∧
    ∃ t ∈ ofFunctions (hostImports ++ contextImports) terse,
      t.name = "PyResult" ∧ leading t.function = some 'p' ∧ IsName t.name := by
  obtain ⟨named, made⟩ := names_terse
  have first : ("PyResult", "_py") ∈
      (ofFunctions (hostImports ++ contextImports) terse).map fun t => (t.name, t.function) := by
    rw [made]
    exact .head _
  obtain ⟨t, member, same⟩ := List.mem_map.1 first
  obtain ⟨name, function⟩ := Prod.mk.inj same
  have leads : leading t.function = some 'p' := by
    rw [function]
    decide
  refine ⟨named, t, member, name, leads, (isName_className _ named member).2 ?_⟩
  rw [leads]
  exact fun digit => absurd digit.2 (by decide)

/-- Two of the classes cannot be defined, though the names of the functions can. -/
theorem terse_undefinable : (∀ f ∈ terse, IsName f.name) ∧
    (ofFunctions (hostImports ++ contextImports) terse).names =
      ["PyResult", "1Result", "Result", "2Result"] ∧
    ¬IsName "1Result" ∧ ¬IsName "2Result" := by
  obtain ⟨named, made⟩ := names_terse
  have names := congrArg (List.map Prod.fst) made
  rw [List.map_map] at names
  refine ⟨named, names, ?_, ?_⟩ <;> rw [IsName, ← Identifier.isWord_iff] <;> decide

end Registry

end Dialogue.Script
