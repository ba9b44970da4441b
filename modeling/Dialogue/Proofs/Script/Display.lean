import Dialogue.Flow.Reading
import Dialogue.Flow.Writing
import Dialogue.Proofs.Literal.Forms
import Dialogue.Proofs.Literal.Numbers
import Dialogue.Script.Value

/-!
# Displays of properties

What a property states is written as a dictionary of literals, each under its key, and read back as
exactly that. Only a number can stand in the way: infinite floats, undefined ones and whole numbers
of too many digits have no literals.
-/

namespace Dialogue

/-! ## Numbers and choices -/

namespace Quantity

def literal : Quantity → Literal
  | .whole n => .int n
  | .real x => .float x

/-- Whether there is a literal for the number. -/
def IsWritable : Quantity → Prop
  | .whole n => (Number.decimalDigits n.natAbs).length ≤ Number.maxDigits
  | .real x => x.isFinite

instance : DecidablePred IsWritable
  | .whole n => inferInstanceAs (Decidable ((Number.decimalDigits n.natAbs).length ≤ _))
  | .real x => inferInstanceAs (Decidable (x.isFinite = true))

end Quantity

namespace Literal

/-- A text as the literal of its code points. -/
def ofText (s : String) : Literal := .text (s.toList.map Char.toNat)

theorem alike_ofText {s t : String} : (ofText s).alike (ofText t) ↔ s = t := by
  have injective : Function.Injective Char.toNat := fun c d => Char.toNat_inj.1
  rw [ofText, ofText, alike, beq_iff_eq, (List.map_injective_iff.2 injective).eq_iff,
    String.toList_inj]

end Literal

namespace Choice

def literal : Choice → Literal
  | .text s => .ofText s
  | .number q => q.literal

def IsWritable : Choice → Prop
  | .text _ => True
  | .number q => q.IsWritable

instance : DecidablePred IsWritable
  | .text _ => inferInstanceAs (Decidable True)
  | .number q => inferInstanceAs (Decidable q.IsWritable)

end Choice

namespace Script

open Literal (CharNames Denotes)

variable {depth : Nat}

/-- A whole number is read back, up to the limit on digits. -/
theorem denotes_whole [CharNames] (n : Int) : Denotes depth (Number.intChars n)
    (if (Quantity.whole n).IsWritable then some (.int n) else none) := by
  have scans : Literal.Scans depth _ _ := Literal.scans_decimalDigits n.natAbs
  unfold Literal.whole? at scans
  split
  case isTrue writable =>
    have short : (Number.decimalDigits n.natAbs).length ≤ Number.maxDigits := writable
    rw [if_pos short] at scans
    unfold Number.intChars
    split
    case isTrue negative =>
      have value : Literal.negate (.int n.natAbs) = .int n := congrArg Literal.int (by omega)
      rw [← value]
      exact Literal.denotes_negative rfl scans
    case isFalse positive =>
      have value : (n.natAbs : Int) = n := by omega
      rw [value] at scans
      exact Literal.denotes_leaf scans
  case isFalse unwritable =>
    have long : ¬(Number.decimalDigits n.natAbs).length ≤ Number.maxDigits := unwritable
    rw [if_neg long] at scans
    unfold Number.intChars
    split
    case isTrue => exact Literal.denotes_none (scans.mark (by simp))
    case isFalse => exact Literal.denotes_none scans

/-- A float is read back unless it is infinite or no number. -/
theorem denotes_real [CharNames] (x : Float) : Denotes depth (Number.floatChars Number.plainNames x)
    (if (Quantity.real x).IsWritable then some (.float x) else none) := by
  split
  case isTrue finite =>
    obtain ⟨number, bounded⟩ := Number.not_of_isFinite finite
    obtain ⟨y, scans, signed⟩ : ∃ y, Literal.Scans depth _ _ ∧ _ := Literal.scans_shortest finite
    simp only [Number.floatChars, number, bounded, Bool.false_eq_true, if_false]
    rw [Json.signedFloat] at signed
    split at signed
    case isTrue negative =>
      have value : Literal.negate (.float y) = .float x := congrArg Literal.float signed
      rw [if_pos negative, ← value]
      exact Literal.denotes_negative rfl scans
    case isFalse positive =>
      rw [signed] at scans
      rw [if_neg positive]
      exact Literal.denotes_leaf scans
  case isFalse infinite =>
    unfold Number.floatChars
    split
    case isTrue =>
      have word : Denotes depth "nan".toList none ∧ _ := Literal.denotes_name (by simp)
      exact word.1
    case isFalse number =>
      have unbounded : x.isInf := by
        by_contra bounded
        exact infinite (Number.isFinite_of_not (by simpa using number) (by simpa using bounded))
      have word : Denotes depth "inf".toList none ∧ Denotes depth ('-' :: "inf".toList) none :=
        Literal.denotes_name (by simp)
      rw [if_pos unbounded]
      dsimp only
      split
      · exact word.2
      · exact word.1

/-- A number is written as its literal, or as what is none. -/
theorem denotes_quantity [CharNames] (q : Quantity) : Denotes depth (quantity q).toList
    (if q.IsWritable then some q.literal else none) := by
  cases q with
  | whole n =>
    rw [quantity, String.toList_ofList]
    exact denotes_whole n
  | real x =>
    rw [quantity, String.toList_ofList]
    exact denotes_real x

theorem denotes_text [CharNames] (s : String) :
    Denotes depth (string s).toList (some (.ofText s)) := by
  rw [string, String.toList_ofList]
  exact Literal.denotes_string s.toList

theorem denotes_choice [CharNames] (c : Choice) : Denotes depth (choice c).toList
    (if c.IsWritable then some c.literal else none) := by
  cases c with
  | text s => exact denotes_text s
  | number q => exact denotes_quantity q

/-- Literals that there are for all items, or for one of them not. -/
theorem mapM_ite {α β : Type} {p : α → Prop} [DecidablePred p] (f : α → β) (items : List α) :
    (items.mapM fun a => if p a then some (f a) else none) =
      if ∀ a ∈ items, p a then some (items.map f) else none := by
  induction items with
  | nil => simp
  | cons a items ih =>
    rw [List.mapM_cons, ih]
    by_cases first : p a
    · simp only [List.forall_mem_cons, first, true_and, if_true]
      split <;> rfl
    · simp [first]

theorem toList_choiceList (cs : List Choice) : (choiceList cs).toList =
    '[' :: ([',', ' '].intercalate (cs.map fun c => (choice c).toList) ++ [']']) := by
  simp [choiceList, commaSeparated, String.toList_intercalate, Function.comp_def]

/-- A list of choices is read back just where every choice is. -/
theorem denotes_choiceList [CharNames] (cs : List Choice) (bound : depth < Literal.maxDepth) :
    Denotes depth (choiceList cs).toList
      (if ∀ c ∈ cs, c.IsWritable then some (.list (cs.map Choice.literal)) else none) := by
  have items : Literal.DenotesItems (depth + 1)
      ([',', ' '].intercalate (cs.map fun c => (choice c).toList))
      (cs.mapM fun c => if c.IsWritable then some c.literal else none) :=
    Literal.denotesItems_separated fun c _ => denotes_choice c
  have its := items.list bound
  rw [toList_choiceList]
  rw [mapM_ite] at its
  split at its
  case isTrue all => rwa [if_pos all]
  case isFalse some => rwa [if_neg some]

/-- Choices are written as the document of them is. -/
theorem value_choices (cs : List Choice) :
    value (.list (cs.map Choice.document)) = choiceList cs := by
  have each (c : Choice) : value c.document = choice c := by
    cases c with
    | text s => rfl
    | number q => cases q <;> rfl
  have items : valueItems (cs.map Choice.document) = cs.map choice := by
    induction cs with
    | nil => rfl
    | cons c cs ih => rw [List.map_cons, valueItems, each, ih, List.map_cons]
  rw [value, items, choiceList]

end Script

/-! ## Properties -/

/-- What a property states under a key. -/
inductive Attribute where
  | text (s : String)
  | choices (cs : List Choice)
  | quantity (q : Quantity)

namespace Attribute

def literal : Attribute → Literal
  | .text s => .ofText s
  | .choices cs => .list (cs.map Choice.literal)
  | .quantity q => q.literal

def IsWritable : Attribute → Prop
  | .text _ => True
  | .choices cs => ∀ c ∈ cs, c.IsWritable
  | .quantity q => q.IsWritable

instance : DecidablePred IsWritable
  | .text _ => inferInstanceAs (Decidable True)
  | .choices cs => inferInstanceAs (Decidable (∀ c ∈ cs, c.IsWritable))
  | .quantity q => inferInstanceAs (Decidable q.IsWritable)

/-- How the attribute is written. -/
def shown : Attribute → String
  | .text s => Script.string s
  | .choices cs => Script.choiceList cs
  | .quantity q => Script.quantity q

end Attribute

namespace Property

/-- The type of a property, its description and its pattern unless they are empty, its choices and
its bounds as far as it has them, each under its key. -/
def attributes (p : Property) : List (String × Attribute) :=
  ("type", .text p.type) ::
    ((Script.nonEmpty p.description).map fun s => ("description", .text s)).toList ++
    (p.choices.map fun cs => ("enum", .choices cs)).toList ++
    (p.minimum.map fun q => ("minimum", .quantity q)).toList ++
    (p.maximum.map fun q => ("maximum", .quantity q)).toList ++
    ((Script.nonEmpty p.pattern).map fun s => ("pattern", .text s)).toList

/-- The dictionary of the attributes. -/
def literal (p : Property) : Literal :=
  .dict (p.attributes.map fun a => (.ofText a.1, a.2.literal))

/-- All numbers of the property have literals. -/
def IsWritable (p : Property) : Prop := ∀ a ∈ p.attributes, a.2.IsWritable

instance : DecidablePred IsWritable := fun p =>
  inferInstanceAs (Decidable (∀ a ∈ p.attributes, a.2.IsWritable))

/-- The fields come in one order, so no key comes twice. -/
theorem keys_sublist (p : Property) : (p.attributes.map (·.1)).Sublist
    ["type", "description", "enum", "minimum", "maximum", "pattern"] := by
  have optional {α : Type} (o : Option α) (key : String) (f : α → Attribute) :
      ((o.map fun a => (key, f a)).toList.map (·.1)).Sublist [key] := by
    cases o <;> simp
  simp only [attributes, List.map_append, List.map_cons, List.cons_append]
  exact .cons_cons _ (((((optional ..).append (optional ..)).append (optional ..)).append
    (optional ..)).append (optional ..))

/-- No two attributes stand under one key. -/
theorem keys_apart (p : Property) :
    p.attributes.Pairwise fun a b => (Literal.ofText a.1).alike (.ofText b.1) = false := by
  have nodup : ["type", "description", "enum", "minimum", "maximum", "pattern"].Nodup := by decide
  refine (List.pairwise_map.1 (nodup.sublist p.keys_sublist)).imp fun {a b} apart => ?_
  rwa [Bool.eq_false_iff, Ne, Literal.alike_ofText]

end Property

namespace Literal

theorem putEntry_fresh {key value : Literal} {es : List (Literal × Literal)}
    (fresh : ∀ e ∈ es, e.1.alike key = false) : putEntry key value es = es ++ [(key, value)] := by
  induction es with
  | nil => rfl
  | cons e es ih =>
    rw [List.forall_mem_cons] at fresh
    rw [putEntry, fresh.1, if_neg (by decide), ih fresh.2, List.cons_append]

/-- A dictionary keeps its entries if no two keys are alike. -/
theorem dictOf_apart {es : List (Literal × Literal)}
    (apart : es.Pairwise fun a b => a.1.alike b.1 = false) : dictOf es = .dict es := by
  have loop (more kept : List (Literal × Literal))
      (apart : (kept ++ more).Pairwise fun a b => a.1.alike b.1 = false) :
      more.foldl (fun es e => putEntry e.1 e.2 es) kept = kept ++ more := by
    induction more generalizing kept with
    | nil => simp
    | cons e more ih =>
      have fresh : ∀ k ∈ kept, k.1.alike e.1 = false := fun k member =>
        (List.pairwise_append.1 apart).2.2 k member e (.head _)
      rw [List.foldl_cons, putEntry_fresh fresh, ih _ (by simpa using apart)]
      simp
  rw [dictOf, loop es [] apart, List.nil_append]

end Literal

namespace Script

open Literal (CharNames Denotes)

variable {depth : Nat}

theorem propertyFields_eq (p : Property) :
    propertyFields p = p.attributes.map fun a => field a.1 a.2.shown := by
  have optional {α : Type} (o : Option α) (key : String) (f : α → Attribute) :
      (o.map fun a => (key, f a)).toList.map (fun a => field a.1 a.2.shown) =
        (o.map fun a => field key (f a).shown).toList := by
    cases o <;> rfl
  simp only [Property.attributes, List.map_append, List.map_cons, optional, List.cons_append]
  rfl

/-- One field is read back just where it can be written. -/
theorem denotes_attribute [CharNames] (a : Attribute) (bound : depth < Literal.maxDepth) :
    Denotes depth a.shown.toList (if a.IsWritable then some a.literal else none) := by
  cases a with
  | text s => exact denotes_text s
  | choices cs => exact denotes_choiceList cs bound
  | quantity q => exact denotes_quantity q

/-- The characters of a display, line by line. -/
theorem toList_display (margin : String) (p : Property) :
    (display margin p).toList = '{' :: '\n' :: ((p.attributes.flatMap fun a =>
      Literal.entryLine (margin.toList ++ (indent 1).toList) a.1.toList a.2.shown.toList) ++
        (margin.toList ++ ['}'])) := by
  simp [display, propertyFields_eq, String.toList_join, field, string, Literal.entryLine,
    List.flatMap_map, Function.comp_def]

/-! ### Characters -/

theorem visible_intercalate {css : List (List Char)} (each : ∀ cs ∈ css, ∀ c ∈ cs, Visible c) :
    ∀ c ∈ [',', ' '].intercalate css, Visible c := by
  induction css with
  | nil => simp
  | cons cs css ih =>
    rw [List.forall_mem_cons] at each
    cases css with
    | nil => simpa using each.1
    | cons ds css =>
      rw [List.intercalate_cons_cons, List.append_assoc, List.forall_mem_append,
        List.forall_mem_append]
      exact ⟨each.1, by simp [Visible], ih each.2⟩

theorem visible_quantity (q : Quantity) : ∀ c ∈ (quantity q).toList, Visible c := by
  cases q with
  | whole n =>
    rw [quantity, String.toList_ofList]
    exact Literal.visible_intChars n
  | real x =>
    rw [quantity, String.toList_ofList]
    exact Literal.visible_floatChars x

theorem visible_choice (c : Choice) : ∀ d ∈ (choice c).toList, Visible d := by
  cases c with
  | text s =>
    rw [choice, string, String.toList_ofList]
    exact visible_stringChars s.toList
  | number q => exact visible_quantity q

theorem visible_choiceList (cs : List Choice) : ∀ d ∈ (choiceList cs).toList, Visible d := by
  have items : ∀ w ∈ cs.map fun c => (choice c).toList, ∀ d ∈ w, Visible d := by
    rw [List.forall_mem_map]
    exact fun c _ => visible_choice c
  rw [toList_choiceList, List.forall_mem_cons, List.forall_mem_append, List.forall_mem_singleton]
  exact ⟨by decide, visible_intercalate items, by decide⟩

theorem visible_shown (a : Attribute) : ∀ d ∈ a.shown.toList, Visible d := by
  cases a with
  | text s => exact visible_choice (.text s)
  | choices cs => exact visible_choiceList cs
  | quantity q => exact visible_quantity q

/-- What has visible characters only is text for the reader. -/
theorem plain_of_visible {cs : List Char} (shown : ∀ c ∈ cs, Visible c) : Literal.Plain cs := by
  intro c member
  constructor <;> rintro rfl <;> exact absurd (shown _ member) (by decide)

/-- Lines of a display end in line feeds, and nothing in them ends a line or a text otherwise. -/
theorem plain_display {margin : String} (blank : ∀ c ∈ margin.toList, c ∈ [' ', '\t', '\x0c'])
    (p : Property) : Literal.Plain (display margin p).toList := by
  have space : Literal.Plain margin.toList := by
    intro d member
    have spaces := blank d member
    simp only [List.mem_cons, List.not_mem_nil, or_false] at spaces
    obtain rfl | rfl | rfl := spaces <;> decide
  have line (a : String × Attribute) : Literal.Plain (Literal.entryLine
      (margin.toList ++ (indent 1).toList) a.1.toList a.2.shown.toList) := by
    simp only [Literal.Plain, Literal.entryLine, List.forall_mem_append, List.forall_mem_cons]
    refine ⟨⟨space, ?_⟩, plain_of_visible (visible_stringChars a.1.toList), by decide, by decide,
      plain_of_visible (visible_shown a.2), by decide, by decide, List.forall_mem_nil _⟩
    simp [indent]
  rw [toList_display]
  simp only [Literal.Plain, List.forall_mem_cons, List.forall_mem_append, List.forall_mem_flatMap]
  exact ⟨by decide, by decide, fun a _ => line a, space, by decide, List.forall_mem_nil _⟩

/-! ### Reading back -/

theorem denotes_display [CharNames] {margin : String}
    (blank : ∀ c ∈ margin.toList, c ∈ [' ', '\t', '\x0c']) (p : Property) :
    Denotes 0 (display margin p).toList (if p.IsWritable then some p.literal else none) := by
  have inner : ∀ c ∈ margin.toList ++ (indent 1).toList, c ∈ [' ', '\t', '\x0c'] := by
    rw [List.forall_mem_append]
    exact ⟨blank, by simp [indent]⟩
  have keyed : (p.attributes.mapM fun a => (if a.2.IsWritable then some a.2.literal else none).map
      fun l => (Literal.ofText a.1, l)) = if p.IsWritable then
        some (p.attributes.map fun a => (Literal.ofText a.1, a.2.literal)) else none := by
    have each (a : String × Attribute) : (if a.2.IsWritable then some a.2.literal else none).map
        (fun l => (Literal.ofText a.1, l)) =
        if a.2.IsWritable then some (Literal.ofText a.1, a.2.literal) else none := by
      split <;> rfl
    simp only [each]
    exact mapM_ite (p := fun a : String × Attribute => a.2.IsWritable) _ _
  have lines : Literal.DenotesEntries (0 + 1) (p.attributes.flatMap fun a =>
      Literal.entryLine (margin.toList ++ (indent 1).toList) a.1.toList a.2.shown.toList)
      (p.attributes.mapM fun a =>
        (if a.2.IsWritable then some a.2.literal else none).map fun l => (Literal.ofText a.1, l)) :=
    Literal.denotesEntries_lines inner fun a _ => denotes_attribute a.2 (by decide)
  have apart : Literal.dictOf (p.attributes.map fun a => (Literal.ofText a.1, a.2.literal)) =
      p.literal := Literal.dictOf_apart (List.pairwise_map.2 p.keys_apart)
  rw [keyed] at lines
  have whole := lines.dict blank (by decide)
  rw [toList_display]
  split at whole
  case isTrue writable => rwa [if_pos writable, ← apart]
  case isFalse unwritable => rwa [if_neg unwritable]

/-- The whole description read, under any margin. -/
theorem read_display [CharNames] {margin : String}
    (blank : ∀ c ∈ margin.toList, c ∈ [' ', '\t', '\x0c']) (p : Property) :
    Literal.read (display margin p).toList =
      if p.IsWritable then .ok p.literal else .error .notLiteral := by
  have denotes := denotes_display blank p
  have plain := plain_display blank p
  rw [toList_display] at denotes plain ⊢
  rw [Literal.read_of_denotes denotes (by decide) plain]
  split <;> split <;> simp_all

/-- A list of choices read by itself. -/
theorem read_choiceList [CharNames] (cs : List Choice) : Literal.read (choiceList cs).toList =
    if ∀ c ∈ cs, c.IsWritable then .ok (.list (cs.map Choice.literal)) else .error .notLiteral := by
  have denotes : Denotes 0 _ _ := denotes_choiceList cs (by decide)
  have plain := plain_of_visible (visible_choiceList cs)
  rw [toList_choiceList] at denotes plain ⊢
  rw [Literal.read_of_denotes denotes (by decide) plain]
  split <;> split <;> simp_all

/-- A property of all attributes, with choices of every kind. -/
def age : Property where
  type := "integer"
  description := some "Years \"lived\"\n"
  choices := some [.number (.whole (-1)), .number (.real (-1.0)), .text "1"]
  minimum := some (.whole 0)
  maximum := some (.real 2.5)
  pattern := some "\\d+"

/-- An upper bound that bounds nothing. -/
def unbounded : Property where
  type := "number"
  maximum := some (.real Number.infinity)

/-- A flow with a function of such a property. -/
def unboundedFlow : Flow where
  info := { name := "Sample", version := "1.0.0" }
  nodes := [
    { id := "greet"
      role := .plain
      position := ⟨0.0, 0.0⟩
      data := {
        functions := some [
          { name := "choose"
            description := ""
            properties := some [("amount", unbounded)] }] } }]
  edges := []

end Script
end Dialogue
