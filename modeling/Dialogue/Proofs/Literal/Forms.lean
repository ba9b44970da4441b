import Dialogue.Literal.Reader
import Dialogue.Proofs.Literal.Scanning

/-!
# Forms of written literals

Which form the tokens of a written literal are read as, and what its value is: pieces that denote
literals make up lists and dictionaries that denote the literals of these. A piece that denotes
nothing is never read, and neither is what holds it.
-/

namespace Dialogue.Literal

/-! ## Tokens -/

/-- Nothing follows that goes on with a form. -/
def Halts (rest : List Token) : Prop :=
  ∀ t ∈ rest.head?, t = .lineEnd ∨ ∃ c ∈ [',', ':', ']', '}'], t = .mark c

/-- A form ends before a comma, a colon or a closing bracket. -/
theorem halts_mark {c : Char} (stop : c ∈ [',', ':', ']', '}']) (rest : List Token) :
    Halts (.mark c :: rest) := by
  intro t first
  obtain rfl : .mark c = t := by simpa using first
  exact .inr ⟨c, stop, rfl⟩

/-- The tokens are an atom, or start like one and are none. -/
structure Atom (ts : List Token) (x? : Option Form) : Prop where
  starts : ∃ t more, ts = t :: more ∧ ∀ c ∈ ['+', '-', ']'], t ≠ .mark c
  reads : ∀ fuel rest, Halts rest → 4 * ts.length ≤ fuel + 2 →
    atom fuel (ts ++ rest) = x?.map fun x => (x, rest)

/-- The tokens are a form, or start like one and are none. -/
structure Forms (ts : List Token) (x? : Option Form) : Prop where
  starts : ∃ t more, ts = t :: more ∧ t ≠ .mark ']'
  reads : ∀ fuel rest, Halts rest → 4 * ts.length ≤ fuel →
    form fuel (ts ++ rest) = x?.map fun x => (x, rest)

/-- The tokens are the items of a list. -/
def Items (ts : List Token) (xs? : Option (List Form)) : Prop :=
  ∀ fuel rest, 4 * ts.length + 2 ≤ fuel → ∃ comma,
    items fuel ']' (ts ++ .mark ']' :: rest) = xs?.map fun xs => (xs, comma, rest)

/-- A key, its value and a comma after it. -/
def entryTokens (key : List Nat) (ts us : List Token) : List Token :=
  .leaf (.text key) :: .mark ':' :: (ts ++ .mark ',' :: us)

/-- The tokens are the entries of a dictionary. -/
structure Entries (ts : List Token) (es? : Option (List (Form × Form))) : Prop where
  starts : ts = [] ∨ ∃ key us vs, ts = entryTokens key us vs
  reads : ∀ fuel rest, 4 * ts.length + 2 ≤ fuel →
    entries fuel (ts ++ .mark '}' :: rest) = es?.map fun es => (es, rest)

section

variable {ts us : List Token} {x? : Option Form} {xs? : Option (List Form)}

theorem atom_leaf (l : Literal) : Atom [.leaf l] (some (.leaf l)) where
  starts := ⟨.leaf l, [], rfl, by simp⟩
  reads fuel rest halts enough := by
    obtain ⟨fuel, rfl⟩ : ∃ n, fuel = n + 1 := ⟨fuel - 1, by simp at enough; omega⟩
    have alone : joinStrings l rest = some (l, rest) := by
      match rest with
      | [] => cases l <;> rfl
      | t :: rest =>
        obtain rfl | ⟨c, -, rfl⟩ := halts t rfl <;> cases l <;> rfl
    simp [atom, alone]

/-- Names are no literals. -/
theorem atom_word {name : String} (named : name ∈ ["inf", "nan"]) : Atom [.word name] none where
  starts := ⟨.word name, [], rfl, by simp⟩
  reads fuel rest halts enough := by
    obtain ⟨fuel, rfl⟩ : ∃ n, fuel = n + 1 := ⟨fuel - 1, by simp at enough; omega⟩
    simp only [List.mem_cons, List.not_mem_nil, or_false] at named
    obtain rfl | rfl := named <;> simp [atom, wordValue?]

/-- An operand alone is a form. -/
theorem form_of_operand {fuel : Nat} {rest : List Token} (halts : Halts rest)
    (operand : operand fuel (ts ++ rest) = x?.map fun x => (x, rest)) :
    form (fuel + 1) (ts ++ rest) = x?.map fun x => (x, rest) := by
  rw [form, operand]
  cases x? with
  | none => rfl
  | some x =>
    simp only [Option.map_some, Option.bind_eq_bind, Option.bind_some]
    match rest with
    | [] => rfl
    | t :: rest =>
      obtain rfl | ⟨c, stop, rfl⟩ := halts t rfl
      · rfl
      · simp only [List.mem_cons, List.not_mem_nil, or_false] at stop
        obtain rfl | rfl | rfl | rfl := stop <;> rfl

theorem Atom.forms (atom : Atom ts x?) : Forms ts x? := by
  obtain ⟨t, more, rfl, other⟩ := atom.starts
  refine ⟨⟨t, more, rfl, other ']' (by simp)⟩, fun fuel rest halts enough => ?_⟩
  rw [List.length_cons] at enough
  obtain ⟨fuel, rfl⟩ : ∃ n, fuel = n + 2 := ⟨fuel - 2, by omega⟩
  refine form_of_operand halts ?_
  rw [List.cons_append, operand]
  · exact atom.reads fuel rest halts (by rw [List.length_cons]; omega)
  · exact fun _ same => other '-' (by simp) (List.cons.inj same).1
  · exact fun _ same => other '+' (by simp) (List.cons.inj same).1

/-- A number after a minus sign. -/
theorem Atom.signed (atom : Atom ts x?) :
    Forms (.mark '-' :: ts) (x?.bind fun x => (number x).map (.signed true)) := by
  refine ⟨⟨.mark '-', ts, rfl, by simp⟩, fun fuel rest halts enough => ?_⟩
  rw [List.length_cons] at enough
  obtain ⟨fuel, rfl⟩ : ∃ n, fuel = n + 2 := ⟨fuel - 2, by omega⟩
  refine form_of_operand halts ?_
  rw [List.cons_append, operand, atom.reads fuel rest halts (by omega)]
  cases x? with
  | none => rfl
  | some x =>
    simp only [Option.map_some, Option.bind_eq_bind, Option.bind_some]
    cases number x <;> rfl

/-! ### Lists -/

theorem items_nil : Items [] (some []) := by
  intro fuel rest enough
  obtain ⟨fuel, rfl⟩ : ∃ n, fuel = n + 1 := ⟨fuel - 1, by omega⟩
  exact ⟨true, by simp [items]⟩

/-- Items that start with a form start with no closing bracket. -/
theorem items_eq (forms : Forms ts x?) (fuel : Nat) (rest : List Token) :
    items (fuel + 1) ']' (ts ++ rest) = itemsFrom fuel ']' (ts ++ rest) := by
  obtain ⟨t, more, rfl, other⟩ := forms.starts
  rw [List.cons_append, items.eq_def]
  cases t with
  | mark c =>
    have apart : c ≠ ']' := fun same => other (congrArg _ same)
    simp [apart]
  | leaf l => rfl
  | word s => rfl
  | lineEnd => rfl

theorem Forms.items_singleton (forms : Forms ts x?) : Items ts (x?.map fun x => [x]) := by
  intro fuel rest enough
  obtain ⟨fuel, rfl⟩ : ∃ n, fuel = n + 2 := ⟨fuel - 2, by omega⟩
  refine ⟨false, ?_⟩
  rw [items_eq forms, itemsFrom, forms.reads fuel _ (halts_mark (by simp) rest) (by omega)]
  cases x? <;> rfl

/-- Items follow one another behind commas. -/
theorem Forms.items_cons (forms : Forms ts x?) (next : Items us xs?) :
    Items (ts ++ .mark ',' :: us) (x?.bind fun x => xs?.map (x :: ·)) := by
  intro fuel rest enough
  rw [List.length_append, List.length_cons] at enough
  obtain ⟨fuel, rfl⟩ : ∃ n, fuel = n + 2 := ⟨fuel - 2, by omega⟩
  obtain ⟨comma, reads⟩ := next fuel rest (by omega)
  refine ⟨comma, ?_⟩
  rw [List.append_assoc, items_eq forms, itemsFrom, List.cons_append,
    forms.reads fuel _ (halts_mark (by simp) _) (by omega)]
  cases x? with
  | none => rfl
  | some x =>
    simp only [Option.map_some, Option.bind_eq_bind, Option.bind_some, reads]
    cases xs? <;> rfl

/-- Items in brackets are a list. -/
theorem Items.atom (its : Items ts xs?) :
    Atom (.mark '[' :: (ts ++ [.mark ']'])) (xs?.map .list) where
  starts := ⟨.mark '[', ts ++ [.mark ']'], rfl, by simp⟩
  reads fuel rest halts enough := by
    simp only [List.length_cons, List.length_append, List.length_nil] at enough
    obtain ⟨fuel, rfl⟩ : ∃ n, fuel = n + 1 := ⟨fuel - 1, by omega⟩
    obtain ⟨comma, reads⟩ := its fuel rest (by omega)
    rw [List.cons_append, List.append_assoc, List.singleton_append, Literal.atom, reads]
    cases xs? <;> rfl

/-! ### Dictionaries -/

variable {es? : Option (List (Form × Form))} {key : List Nat}

theorem entries_nil : Entries [] (some []) where
  starts := .inl rfl
  reads fuel rest enough := by
    obtain ⟨fuel, rfl⟩ : ∃ n, fuel = n + 1 := ⟨fuel - 1, by omega⟩
    simp [entries]

/-- A text before a colon is a form of its own. -/
theorem form_key {fuel : Nat} (enough : 4 ≤ fuel) (key : List Nat) (rest : List Token) :
    form fuel (.leaf (.text key) :: .mark ':' :: rest) =
      some (.leaf (.text key), .mark ':' :: rest) :=
  (atom_leaf (.text key)).forms.reads fuel _ (halts_mark (by simp) rest) enough

theorem entries_key {fuel : Nat} (enough : 4 ≤ fuel) (key : List Nat) (rest : List Token) :
    entries (fuel + 1) (.leaf (.text key) :: .mark ':' :: rest) =
      entryFrom fuel (.leaf (.text key)) rest := by
  rw [entries, form_key enough]
  · rfl
  · simp

theorem Forms.entries_cons (forms : Forms ts x?) (next : Entries us es?) :
    Entries (entryTokens key ts us)
      (x?.bind fun x => es?.map ((.leaf (.text key), x) :: ·)) where
  starts := .inr ⟨key, ts, us, rfl⟩
  reads fuel rest enough := by
    simp only [entryTokens, List.length_cons, List.length_append] at enough
    obtain ⟨fuel, rfl⟩ : ∃ n, fuel = n + 2 := ⟨fuel - 2, by omega⟩
    simp only [entryTokens, List.cons_append, List.append_assoc]
    rw [entries_key (by omega), entryFrom, forms.reads fuel _ (halts_mark (by simp) _) (by omega)]
    cases x? with
    | none => rfl
    | some x =>
      simp only [Option.map_some, Option.bind_eq_bind, Option.bind_some,
        next.reads fuel rest (by omega)]
      cases es? <;> rfl

/-- Entries in braces are a dictionary. -/
theorem Entries.atom (es : Entries ts es?) :
    Atom (.mark '{' :: (ts ++ [.mark '}'])) (es?.map .dict) where
  starts := ⟨.mark '{', ts ++ [.mark '}'], rfl, by simp⟩
  reads fuel rest halts enough := by
    simp only [List.length_cons, List.length_append, List.length_nil] at enough
    obtain ⟨fuel, rfl⟩ : ∃ n, fuel = n + 1 := ⟨fuel - 1, by omega⟩
    have reads := es.reads (fuel + 1) rest (by omega)
    rw [List.cons_append, List.append_assoc, List.singleton_append]
    obtain rfl | ⟨key, us, vs, rfl⟩ := es.starts
    · cases es? <;> simp_all [Literal.atom, entries]
    · have long : 4 ≤ fuel := by simp [entryTokens] at enough; omega
      simp only [entryTokens, List.cons_append, List.append_assoc] at reads ⊢
      rw [entries_key long] at reads
      rw [Literal.atom, form_key long]
      · simp only [Option.bind_eq_bind, Option.bind_some, reads]
        cases es? <;> rfl
      · simp

/-! ### Whole texts -/

/-- One form and the end of its line. -/
theorem Forms.formOf? (forms : Forms ts x?) : formOf? (ts ++ [.lineEnd]) = x? := by
  have halts : Halts [.lineEnd] := by simp [Halts]
  rw [Literal.formOf?, forms.reads _ _ halts (by rw [List.length_append]; omega)]
  cases x? <;> rfl

end

/-! ## Texts -/

variable [CharNames]

/-- With so many brackets open, the text is one form, whose value is the literal; or there is no
literal, and the text is read as nothing. -/
def Denotes (depth : Nat) (ws : List Char) (l? : Option Literal) : Prop :=
  Scans depth ws none ∧ l? = none ∨
    ∃ ts x?, Scans depth ws (some ts) ∧ Forms ts x? ∧ x?.map Form.value = l?.map .ok

/-- The text is the items of a list, if these are literals. -/
def DenotesItems (depth : Nat) (ws : List Char) (ls? : Option (List Literal)) : Prop :=
  Scans depth ws none ∧ ls? = none ∨
    ∃ ts xs?, Scans depth ws (some ts) ∧ Items ts xs? ∧ xs?.map values = ls?.map .ok

/-- The text is the entries of a dictionary, if their values are literals. -/
def DenotesEntries (depth : Nat) (ws : List Char) (es? : Option (List (Literal × Literal))) :
    Prop :=
  Scans depth ws none ∧ es? = none ∨
    ∃ ts xs?, Scans depth ws (some ts) ∧ Entries ts xs? ∧ xs?.map entryValues = es?.map .ok

section

variable {depth : Nat} {ws us : List Char} {l? : Option Literal} {ls? : Option (List Literal)}
  {es? : Option (List (Literal × Literal))}

theorem denotes_leaf {l : Literal} (scans : Scans depth ws (some [.leaf l])) :
    Denotes depth ws (some l) :=
  .inr ⟨_, _, scans, (atom_leaf l).forms, rfl⟩

/-- A minus before a number gives the negative number. -/
theorem denotes_negative {l : Literal} (isNumber : isNumber l)
    (scans : Scans depth ws (some [.leaf l])) : Denotes depth ('-' :: ws) (some (negate l)) := by
  refine .inr ⟨_, _, scans.mark (by simp), (atom_leaf l).signed, ?_⟩
  simp [number, isNumber, Form.value]

/-- What cannot be cut into tokens denotes nothing. -/
theorem denotes_none (scans : Scans depth ws none) : Denotes depth ws none := .inl ⟨scans, rfl⟩

/-- Neither of these names is a literal. -/
theorem denotes_name {name : String} (named : name ∈ ["inf", "nan"]) :
    Denotes depth name.toList none ∧ Denotes depth ('-' :: name.toList) none :=
  ⟨.inr ⟨_, _, scans_name named, (atom_word named).forms, rfl⟩,
    .inr ⟨_, _, (scans_name named).mark (by simp), (atom_word named).signed, rfl⟩⟩

/-- A string literal denotes its text. -/
theorem denotes_string (cs : List Char) :
    Denotes depth (Script.stringChars cs) (some (.text (cs.map Char.toNat))) :=
  denotes_leaf (scans_string cs)

/-! ### Lists -/

theorem denotesItems_nil (depth : Nat) : DenotesItems depth [] (some []) :=
  .inr ⟨_, _, scans_nil depth, items_nil, rfl⟩

omit [CharNames] in
theorem values_cons {x : Form} {xs : List Form} {l : Literal} {ls : List Literal}
    (value : x.value = .ok l) (rest : values xs = .ok ls) : values (x :: xs) = .ok (l :: ls) := by
  rw [values, value, rest]
  rfl

omit [CharNames] in
/-- Items have values if each has. -/
theorem map_values_cons {x? : Option Form} {xs? : Option (List Form)}
    (value : x?.map Form.value = l?.map .ok) (rest : xs?.map values = ls?.map .ok) :
    (x?.bind fun x => xs?.map (x :: ·)).map values =
      (l?.bind fun l => ls?.map (l :: ·)).map .ok := by
  match x?, l?, value, xs?, ls?, rest with
  | none, none, _, _, _, _ => rfl
  | some x, some l, _, none, none, _ => rfl
  | some x, some l, value, some xs, some ls, rest =>
    exact congrArg some (values_cons (Option.some.inj value) (Option.some.inj rest))

theorem Denotes.items_singleton (first : Denotes depth ws l?) :
    DenotesItems depth ws (l?.map fun l => [l]) := by
  obtain ⟨scans, rfl⟩ | ⟨ts, x?, scans, forms, value⟩ := first
  · exact .inl ⟨scans, rfl⟩
  · refine .inr ⟨ts, _, scans, forms.items_singleton, ?_⟩
    match x?, l?, value with
    | none, none, _ => rfl
    | some x, some l, value => exact congrArg some (values_cons (Option.some.inj value) rfl)

theorem Denotes.items_cons (first : Denotes depth ws l?) (next : DenotesItems depth us ls?) :
    DenotesItems depth (ws ++ ',' :: ' ' :: us) (l?.bind fun l => ls?.map (l :: ·)) := by
  have stop : Ended (',' :: ' ' :: us) := ended_cons (by simp [stops]) _
  have after {us? : Option (List Token)} (scans : Scans depth us us?) :
      Scans depth (',' :: ' ' :: us) (us?.map (.mark ',' :: ·)) :=
    (scans.blank (by simp)).mark (by simp)
  obtain ⟨scans, rfl⟩ | ⟨ts, x?, scans, forms, value⟩ := first
  · exact .inl ⟨scans.none_append stop, rfl⟩
  · obtain ⟨rest, rfl⟩ | ⟨us', xs?, rest, its, values⟩ := next
    · exact .inl ⟨scans.append (after rest) stop, by cases l? <;> rfl⟩
    · exact .inr ⟨_, _, scans.append (after rest) stop, forms.items_cons its,
        map_values_cons value values⟩

/-- Items with a comma and a blank between them. -/
theorem denotesItems_separated {α : Type} {text : α → List Char} {literal? : α → Option Literal}
    {items : List α} (each : ∀ a ∈ items, Denotes depth (text a) (literal? a)) :
    DenotesItems depth ([',', ' '].intercalate (items.map text)) (items.mapM literal?) := by
  induction items with
  | nil => exact denotesItems_nil depth
  | cons a items ih =>
    rw [List.forall_mem_cons] at each
    have run : (a :: items).mapM literal? =
        (literal? a).bind fun l => (items.mapM literal?).map (l :: ·) := by
      simp only [List.mapM_cons, Option.map_eq_bind]
      rfl
    rw [run]
    cases items with
    | nil =>
      have first := each.1.items_singleton
      rw [Option.map_eq_bind] at first
      simpa [Function.comp_def] using first
    | cons b items =>
      rw [List.map_cons, List.map_cons, List.intercalate_cons_cons, List.append_assoc]
      exact each.1.items_cons (ih each.2)

/-- Items in brackets denote a list, if brackets are not nested too deep. -/
theorem DenotesItems.list (its : DenotesItems (depth + 1) ws ls?) (bound : depth < maxDepth) :
    Denotes depth ('[' :: (ws ++ [']'])) (ls?.map .list) := by
  obtain ⟨scans, rfl⟩ | ⟨ts, xs?, scans, its, value⟩ := its
  · exact .inl ⟨scans.bracket (by simp) bound, rfl⟩
  · refine .inr ⟨_, _, scans.bracket (by simp) bound, its.atom.forms, ?_⟩
    cases xs? <;> cases ls? <;> simp at value
    · rfl
    · simp [Form.value, value]

/-! ### Dictionaries -/

theorem denotesEntries_nil (depth : Nat) : DenotesEntries depth [] (some []) :=
  .inr ⟨_, _, scans_nil depth, entries_nil, rfl⟩

omit [CharNames] in
theorem entryValues_cons {x : Form} {xs : List (Form × Form)} {key l : Literal}
    {es : List (Literal × Literal)} (fixed : key.isFixed) (value : x.value = .ok l)
    (rest : entryValues xs = .ok es) :
    entryValues ((.leaf key, x) :: xs) = .ok ((key, l) :: es) := by
  have kept : Literal.fixed key = .ok key := if_pos fixed
  simp only [entryValues, Form.value, value, rest, bind, Except.bind, kept]

omit [CharNames] in
/-- Entries have values under keys that are fixed. -/
theorem map_entryValues_cons {x? : Option Form} {xs? : Option (List (Form × Form))} {key : Literal}
    (fixed : key.isFixed) (value : x?.map Form.value = l?.map .ok)
    (rest : xs?.map entryValues = es?.map .ok) :
    (x?.bind fun x => xs?.map ((.leaf key, x) :: ·)).map entryValues =
      (l?.bind fun l => es?.map ((key, l) :: ·)).map .ok := by
  match x?, l?, value, xs?, es?, rest with
  | none, none, _, _, _, _ => rfl
  | some x, some l, _, none, none, _ => rfl
  | some x, some l, value, some xs, some es, rest =>
    exact congrArg some (entryValues_cons fixed (Option.some.inj value) (Option.some.inj rest))

/-- A line with a key, its value and a comma. -/
def entryLine (margin key value : List Char) : List Char :=
  margin ++ (Script.stringChars key ++ ':' :: ' ' :: (value ++ [',', '\n']))

/-- One entry and those after it; brackets are open, so that the end of its line is passed over. -/
theorem Denotes.entries_cons {margin key : List Char} (blank : ∀ c ∈ margin, c ∈ [' ', '\t', '\x0c'])
    (first : Denotes (depth + 1) ws l?) (next : DenotesEntries (depth + 1) us es?) :
    DenotesEntries (depth + 1) (entryLine margin key ws ++ us)
      (l?.bind fun l => es?.map ((.text (key.map Char.toNat), l) :: ·)) := by
  have text : entryLine margin key ws ++ us = margin ++
      (Script.stringChars key ++ ':' :: ' ' :: (ws ++ ',' :: '\n' :: us)) := by simp [entryLine]
  have stop : Ended (',' :: '\n' :: us) := ended_cons (by simp [stops]) _
  have after {us? : Option (List Token)} (scans : Scans (depth + 1) us us?) :
      Scans (depth + 1) (',' :: '\n' :: us) (us?.map (.mark ',' :: ·)) :=
    (scans.feed (by simp)).mark (by simp)
  have line {vs : List Char} {vs? : Option (List Token)} (scans : Scans (depth + 1) vs vs?) :
      Scans (depth + 1) (margin ++ (Script.stringChars key ++ ':' :: ' ' :: vs))
        (vs?.map fun vs => .leaf (.text (key.map Char.toNat)) :: .mark ':' :: vs) := by
    have colon : Scans (depth + 1) (':' :: ' ' :: vs) _ := (scans.blank (by simp)).mark (by simp)
    have whole := (scans_string key).append colon (ended_cons (by simp [stops]) _)
    have tokens := whole.blanks blank
    cases vs? <;> exact tokens
  rw [text]
  obtain ⟨scans, rfl⟩ | ⟨ts, x?, scans, forms, value⟩ := first
  · exact .inl ⟨line (scans.none_append stop), rfl⟩
  · obtain ⟨rest, rfl⟩ | ⟨us', xs?, rest, es, values⟩ := next
    · exact .inl ⟨line (scans.append (after rest) stop), by cases l? <;> rfl⟩
    · exact .inr ⟨_, _, line (scans.append (after rest) stop), forms.entries_cons es,
        map_entryValues_cons rfl value values⟩

/-- Lines of entries, all with the same margin. -/
theorem denotesEntries_lines {α : Type} {margin : List Char}
    (blank : ∀ c ∈ margin, c ∈ [' ', '\t', '\x0c']) {key text : α → List Char}
    {literal? : α → Option Literal} {items : List α}
    (each : ∀ a ∈ items, Denotes (depth + 1) (text a) (literal? a)) :
    DenotesEntries (depth + 1) (items.flatMap fun a => entryLine margin (key a) (text a))
      (items.mapM fun a => (literal? a).map fun l => (.text ((key a).map Char.toNat), l)) := by
  induction items with
  | nil => exact denotesEntries_nil (depth + 1)
  | cons a items ih =>
    rw [List.forall_mem_cons] at each
    have whole : DenotesEntries (depth + 1) (entryLine margin (key a) (text a) ++ _) _ :=
      each.1.entries_cons blank (ih each.2)
    simpa [List.mapM_cons, Option.map_eq_bind, Option.bind_assoc, Function.comp_def] using whole

/-- Entries in braces denote a dictionary. -/
theorem DenotesEntries.dict {margin : List Char} (blank : ∀ c ∈ margin, c ∈ [' ', '\t', '\x0c'])
    (es : DenotesEntries (depth + 1) ws es?) (bound : depth < maxDepth) :
    Denotes depth ('{' :: '\n' :: (ws ++ (margin ++ ['}']))) (es?.map dictOf) := by
  have text : '{' :: '\n' :: (ws ++ (margin ++ ['}'])) =
      '{' :: ('\n' :: (ws ++ margin) ++ ['}']) := by simp
  have body {ts? : Option (List Token)} (scans : Scans (depth + 1) ws ts?) :
      Scans (depth + 1) ('\n' :: (ws ++ margin)) ts? := by
    have ended : Ended margin := by
      intro c first
      have spaces : ∀ c ∈ [' ', '\t', '\x0c'], c ∈ stops := by simp [stops]
      exact spaces c (blank c (List.mem_of_mem_head? first))
    have closing := (scans_nil (depth + 1)).blanks blank
    rw [List.append_nil] at closing
    have whole := (scans.append closing ended).feed (Nat.succ_ne_zero depth)
    cases ts? with
    | none => exact whole
    | some ts => simpa using whole
  rw [text]
  obtain ⟨scans, rfl⟩ | ⟨ts, xs?, scans, its, value⟩ := es
  · exact .inl ⟨(body scans).bracket (by simp) bound, rfl⟩
  · refine .inr ⟨_, _, (body scans).bracket (by simp) bound, its.atom.forms, ?_⟩
    cases xs? <;> cases es? <;> simp at value
    · rfl
    · simp [Form.value, value]

end

/-! ## Reading -/

/-- A text that starts with a token and is plain is read as what it denotes. -/
theorem read_of_denotes {c : Char} {ws : List Char} {l? : Option Literal}
    (denotes : Denotes 0 (c :: ws) l?) (start : c ∉ spacing)
    (plain : Plain (c :: ws)) : read (c :: ws) = match l? with
      | some l => .ok l
      | none => .error .notLiteral := by
  rw [read]
  obtain ⟨scans, rfl⟩ | ⟨ts, x?, scans, forms, value⟩ := denotes
  · rw [tokens?_of_scans scans start plain]
    rfl
  · rw [tokens?_of_scans scans start plain, Option.map_some, Option.bind_some, forms.formOf?]
    match x?, l?, value with
    | none, none, _ => rfl
    | some x, some l, value => exact Option.some.inj value

end Dialogue.Literal
