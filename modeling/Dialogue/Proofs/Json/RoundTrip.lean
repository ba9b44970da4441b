import Dialogue.Proofs.Document.Holds
import Dialogue.Proofs.Document.Outcome
import Dialogue.Proofs.Json.Number
import Dialogue.Proofs.Json.Text

/-!
# JSON read back

What is written of a document is read again, with every key as the text that it was written as. A
document whose keys are distinct texts is read back as it was. Writing fails for dates and for whole
numbers that are too long, and for nothing else.
-/

namespace Dialogue

namespace Scalar

/-- The scalar has a form in JSON. -/
def Writable : Scalar → Prop
  | .int n => (Number.decimalDigits n.natAbs).length ≤ Number.maxDigits
  | .date _ => False
  | _ => True

/-- No two code points of the scalar are the halves of one that is written alike. -/
def Whole : Scalar → Prop
  | .unpaired codes =>
    codes.all Nat.isValidChar = false ∧ (∀ u ∈ codes, u < 0x110000) ∧ Json.Unsplit codes
  | _ => True

def IsText (s : Scalar) : Prop := s.codes?.isSome

theorem IsText.writable {s : Scalar} (text : s.IsText) : s.Writable := by
  cases s with
  | text | unpaired => trivial
  | _ => cases text

/-- The text that a key is written as. -/
def spelled : Scalar → Scalar
  | .text s => .text s
  | .unpaired codes => .unpaired codes
  | s =>
    match Json.scalar Json.lined s with
    | .ok cs => .text (String.ofList cs)
    | .error _ => s

/-- A key that is a text is spelled as it is. -/
theorem spelled_of_isText {s : Scalar} (text : s.IsText) : s.spelled = s := by
  cases s with
  | text | unpaired => rfl
  | _ => cases text

end Scalar

namespace Document

mutual

/-- The document that is read of what another one is written as. -/
def respelled : Document → Document
  | .scalar s => .scalar s
  | .list xs => .list (respelledItems xs)
  | .map es => .map (respelledEntries [] es)

def respelledItems : List Document → List Document
  | [] => []
  | x :: xs => respelled x :: respelledItems xs

/-- The entries in front of which others have been read. -/
def respelledEntries (front : Entries) : Entries → Entries
  | [] => front
  | (k, x) :: es => respelledEntries (front.insert k.spelled (respelled x)) es

end

/-- Items are respelled one by one. -/
theorem respelledItems_eq (xs : List Document) : respelledItems xs = xs.map respelled := by
  induction xs with
  | nil => rfl
  | cons x xs ih => simp [respelledItems, ih]

theorem respelledEntries_eq (front es : Entries) : respelledEntries front es =
    (es.map fun e => (e.1.spelled, e.2.respelled)).foldl (fun front e => front.insert e.1 e.2)
      front := by
  induction es generalizing front with
  | nil => rfl
  | cons e es ih => rw [respelledEntries, ih, List.map_cons, List.foldl_cons]

/-- The keys of every map are texts. -/
def TextKeyed (d : Document) : Prop := d.Holds (fun _ => True) fun ks => ∀ k ∈ ks, k.IsText

/-- Keys that are distinct texts are kept. -/
theorem respelled_eq {d : Document} (texts : d.TextKeyed) (distinct : d.Distinct) :
    d.respelled = d := by
  have h := Holds.and texts distinct
  clear texts distinct
  induction d using byParts with
  | scalar s => rfl
  | list xs ih =>
    rw [respelled, respelledItems_eq,
      List.map_congr_left fun x member => ih x member (holds_list.1 h x member), List.map_id']
  | map es ih =>
    obtain ⟨⟨texts, apart⟩, values⟩ := holds_map.1 h
    have kept : (es.map fun e => (e.1.spelled, e.2.respelled)) = es := by
      refine (List.map_congr_left fun e member => ?_).trans (List.map_id' es)
      rw [Scalar.spelled_of_isText (texts e.1 (List.mem_map_of_mem member)),
        ih e member (values e member)]
    rw [respelled, respelledEntries_eq, kept, Entries.foldl_insert (by simpa using apart),
      List.nil_append]

end Document

namespace Json

variable {l : Layout}

/-! ## Writing -/

/-- A scalar has a text unless its number is too long. -/
theorem writable_scalar {s : Scalar} : (∃ cs, scalar l s = .ok cs) ↔ s.Writable := by
  cases s with
  | int n =>
    rw [scalar, Scalar.Writable, ← not_lt]
    split <;> simp [*]
  | _ => simp [scalar, Scalar.Writable]

/-- Any other key than a text is written in quotes. -/
theorem key_of_not_text {k : Scalar} (other : ¬k.IsText) :
    key l k = (scalar l k >>= fun cs => .ok (l.text (String.ofList cs))) := by
  cases k with
  | text | unpaired => exact absurd rfl other
  | _ => rfl

theorem writable_key {k : Scalar} : (∃ cs, key l k = .ok cs) ↔ k.Writable := by
  by_cases text : k.IsText
  · cases k with
    | text | unpaired => simp [key, Scalar.Writable]
    | _ => cases text
  · simp only [key_of_not_text text, exists_bind_eq_ok, Except.ok.injEq, exists_eq', and_true,
      writable_scalar]

/-- Items can be written if each can. -/
theorem writable_itemChars {depth : Nat} {xs : List Document} :
    (∃ cs, itemChars l depth xs = .ok cs) ↔ ∀ x ∈ xs, ∃ cs, chars l depth x = .ok cs := by
  induction xs with
  | nil => simp [itemChars]
  | cons x xs ih =>
    cases xs with
    | nil => simp [itemChars, exists_bind_eq_ok]
    | cons y xs =>
      simp only [itemChars, exists_bind_eq_ok, Except.ok.injEq, exists_eq', and_true, ih,
        List.forall_mem_cons, exists_and_right]

/-- Entries can be written if all keys and values can. -/
theorem writable_entryChars {depth : Nat} {es : Entries} :
    (∃ cs, entryChars l depth es = .ok cs) ↔
      ∀ e ∈ es, e.1.Writable ∧ ∃ cs, chars l depth e.2 = .ok cs := by
  induction es with
  | nil => simp [entryChars]
  | cons e es ih =>
    obtain ⟨k, x⟩ := e
    cases es with
    | nil =>
      simp [entryChars, exists_bind_eq_ok, writable_key]
    | cons f es =>
      simp only [entryChars, exists_bind_eq_ok, Except.ok.injEq, exists_eq', and_true, ih,
        List.forall_mem_cons, exists_and_right, writable_key, and_assoc]

/-- A document is written if and only if all its scalars can be. -/
theorem writable_chars {d : Document} (depth : Nat) :
    (∃ cs, chars l depth d = .ok cs) ↔ d.Every Scalar.Writable := by
  induction d using Document.byParts generalizing depth with
  | scalar s => rw [chars, writable_scalar, Document.every_scalar]
  | list xs ih =>
    have items : (∃ cs, chars l depth (.list xs) = .ok cs) ↔
        ∃ cs, itemChars l (depth + 1) xs = .ok cs := by
      cases xs with
      | nil => simp [chars, itemChars]
      | cons x xs => simp only [chars, exists_bind_eq_ok, Except.ok.injEq, exists_eq', and_true]
    rw [items, writable_itemChars, Document.every_list]
    exact forall₂_congr fun x member => ih x member _
  | map es ih =>
    have entries : (∃ cs, chars l depth (.map es) = .ok cs) ↔
        ∃ cs, entryChars l (depth + 1) es = .ok cs := by
      cases es with
      | nil => simp [chars, entryChars]
      | cons e es => simp only [chars, exists_bind_eq_ok, Except.ok.injEq, exists_eq', and_true]
    rw [entries, writable_entryChars, Document.every_map]
    exact forall₂_congr fun e member => and_congr_right fun _ => ih e member _

/-! ## Reading -/

/-- The layout has nothing but spaces between the parts of a text. -/
structure Layout.Spaced (l : Layout) : Prop where
  newline : ∀ depth, ∀ c ∈ l.newline depth, isSpace c
  comma : ∃ gap, l.comma = ',' :: gap ∧ ∀ c ∈ gap, isSpace c
  colon : ∃ gap, l.colon = ':' :: gap ∧ ∀ c ∈ gap, isSpace c

theorem spaced_lined : lined.Spaced where
  newline depth := by
    intro c member
    rcases List.mem_cons.1 member with rfl | space
    · rfl
    · rw [List.eq_of_mem_replicate space]
      simp [isSpace]
  comma := ⟨[], rfl, by simp⟩
  colon := ⟨[' '], rfl, by simp [isSpace]⟩

/-- Spaces in front are skipped. -/
theorem skipSpace_append {gap : List Char} (spaces : ∀ c ∈ gap, isSpace c) (rest : List Char) :
    skipSpace (gap ++ rest) = skipSpace rest := List.dropWhile_append_of_pos spaces

theorem skipSpace_cons {c : Char} (shown : isSpace c = false) (rest : List Char) :
    skipSpace (c :: rest) = c :: rest := by
  simp [skipSpace, shown]

/-- A number may end before spaces. -/
theorem ends_append {gap : List Char} (spaces : ∀ c ∈ gap, isSpace c) {rest : List Char}
    (ends : Ends rest) : Ends (gap ++ rest) := by
  cases gap with
  | nil => exact ends
  | cons c gap =>
    have space : isSpace c := spaces c (.head _)
    simp only [isSpace, Bool.or_eq_true, beq_iff_eq] at space
    obtain ((rfl | rfl) | rfl) | rfl := space <;> exact ends_cons rfl (by decide)

theorem ends_bracket {rest : List Char} : Ends (']' :: rest) := ends_cons rfl (by decide)

theorem ends_brace {rest : List Char} : Ends ('}' :: rest) := ends_cons rfl (by decide)

theorem ends_comma {rest : List Char} : Ends (',' :: rest) := ends_cons rfl (by decide)

/-- A value starts neither with a space nor with a closing bracket. -/
theorem start_of_value {fuel : Nat} {cs : List Char} {r : Document × List Char}
    (read : value fuel cs = .ok r) :
    ∃ c more, cs = c :: more ∧ isSpace c = false ∧ c ≠ ']' := by
  cases fuel with
  | zero => cases read
  | succ fuel =>
    cases cs with
    | nil => cases read
    | cons c more =>
      refine ⟨c, more, rfl, ?_, ?_⟩
      · by_contra space
        simp only [isSpace, Bool.not_eq_false, Bool.or_eq_true, beq_iff_eq] at space
        obtain ((rfl | rfl) | rfl) | rfl := space <;> cases read
      · rintro rfl
        cases read

/-- Items do not start with the end of their list. -/
theorem start_of_items {fuel : Nat} {cs : List Char} {r : List Document × List Char}
    (read : items fuel cs = .ok r) : ∃ c more, cs = c :: more ∧ c ≠ ']' := by
  cases fuel with
  | zero => cases read
  | succ fuel =>
    obtain ⟨_, value, -⟩ := bind_eq_ok.1 read
    obtain ⟨c, more, rfl, -, other⟩ := start_of_value value
    exact ⟨c, more, rfl, other⟩

/-- Members start with a quote. -/
theorem start_of_members {fuel : Nat} {front : Entries} {cs : List Char}
    {r : Entries × List Char} (read : members fuel front cs = .ok r) :
    ∃ more, cs = '"' :: more := by
  cases fuel with
  | zero => cases read
  | succ fuel =>
    unfold members at read
    split at read
    · exact ⟨_, rfl⟩
    · cases read

/-- However a document is written, it is read back. -/
def ReadsBack (l : Layout) (d : Document) : Prop :=
  ∀ (depth : Nat) (cs : List Char), chars l depth d = .ok cs → ∀ (rest : List Char) (fuel : Nat),
    Ends rest → cs.length ≤ fuel → value fuel (cs ++ rest) = .ok (d.respelled, rest)

/-- A text in quotes is read as a text. -/
theorem value_quotes (fuel : Nat) {s : Scalar} {ws : List Char} (quotes : Quotes s ws)
    (rest : List Char) : value (fuel + 1) (ws ++ rest) = .ok (.scalar s, rest) := by
  obtain ⟨body, rfl, reads⟩ := quotes
  obtain ⟨codes, read, rfl⟩ := reads rest
  rw [List.cons_append, value, read]
  rfl

/-- So is one with surrogates that pair with nothing. -/
theorem quotes_unpaired {codes : List Nat} (whole : (Scalar.unpaired codes).Whole) :
    Quotes (.unpaired codes) (quotedCodes codes) := by
  obtain ⟨invalid, points, unsplit⟩ := whole
  have quotes := quotes_quotedCodes points unsplit
  rwa [Scalar.ofCodes, invalid, if_neg Bool.false_ne_true] at quotes

theorem value_scalar {s : Scalar} (whole : s.Whole) {cs : List Char}
    (written : scalar l s = .ok cs) {rest : List Char} (ends : Ends rest) (fuel : Nat) :
    value (fuel + 1) (cs ++ rest) = .ok (.scalar s, rest) := by
  cases s with
  | null =>
    cases written
    rfl
  | bool b =>
    cases written
    cases b <;> rfl
  | int n =>
    rw [scalar] at written
    split at written
    · cases written
    · obtain rfl := Except.ok.inj written
      exact value_intChars fuel (by omega) ends
  | float x =>
    cases written
    exact value_floatChars fuel x ends
  | text s =>
    cases written
    exact value_quotes fuel (quotes_text l s) rest
  | unpaired codes =>
    cases written
    exact value_quotes fuel (quotes_unpaired whole) rest
  | date m => cases written

/-- A scalar is read back from its text. -/
theorem readsBack_scalar {s : Scalar} (whole : s.Whole) : ReadsBack l (.scalar s) := by
  intro depth cs written rest fuel ends enough
  obtain ⟨c, more, same, -⟩ := start_of_value (value_scalar whole written ends_nil 0)
  obtain ⟨fuel, rfl⟩ : ∃ n, fuel = n + 1 := by
    rw [List.append_nil] at same
    rw [same, List.length_cons] at enough
    exact ⟨fuel - 1, by omega⟩
  exact value_scalar whole written ends fuel

/-- One item is read, and then the end or the others. -/
theorem items_item (spaced : l.Spaced) {x : Document} (back : ReadsBack l x) {depth : Nat}
    {ws : List Char} (written : chars l depth x = .ok ws) {rest : List Char} (ends : Ends rest)
    {fuel : Nat} (enough : ws.length ≤ fuel) {c : Char} {more : List Char}
    (next : skipSpace rest = c :: more) :
    (c = ']' → items (fuel + 1) (skipSpace (l.newline depth ++ (ws ++ rest))) =
      .ok ([x.respelled], more)) ∧
    (c = ',' → ∀ {xs r}, items fuel (skipSpace more) = .ok (xs, r) →
      items (fuel + 1) (skipSpace (l.newline depth ++ (ws ++ rest))) =
        .ok (x.respelled :: xs, r)) := by
  have read := back _ ws written rest fuel ends enough
  obtain ⟨d, after, same, shown, -⟩ := start_of_value read
  rw [skipSpace_append (spaced.newline depth), same, skipSpace_cons shown, ← same, items, read,
    ok_bind]
  constructor
  · rintro rfl
    simp [next]
  · rintro rfl xs r others
    simp [next, others]

/-- Items that read back are read back in their list, as many as there are. -/
theorem items_itemChars (spaced : l.Spaced) {xs : List Document} (some : xs ≠ [])
    (each : ∀ x ∈ xs, ReadsBack l x) {depth : Nat} {cs : List Char}
    (written : itemChars l depth xs = .ok cs) {gap : List Char} (spaces : ∀ c ∈ gap, isSpace c)
    (rest : List Char) {fuel : Nat} (enough : cs.length < fuel) :
    items fuel (skipSpace (cs ++ (gap ++ ']' :: rest))) = .ok (xs.map Document.respelled, rest) := by
  induction xs generalizing cs fuel with
  | nil => exact absurd rfl some
  | cons x xs ih =>
    obtain ⟨fuel, rfl⟩ : ∃ n, fuel = n + 1 := ⟨fuel - 1, by omega⟩
    have back := each x (.head _)
    cases xs with
    | nil =>
      obtain ⟨ws, one, rfl⟩ : ∃ ws, chars l depth x = .ok ws ∧ l.newline depth ++ ws = cs := by
        simpa [itemChars, bind_eq_ok] using written
      rw [List.length_append] at enough
      have closing : skipSpace (gap ++ ']' :: rest) = ']' :: rest := by
        rw [skipSpace_append spaces, skipSpace_cons rfl]
      rw [List.append_assoc]
      exact (items_item spaced back one (ends_append spaces ends_bracket) (by omega) closing).1 rfl
    | cons y ys =>
      obtain ⟨ws, one, tail, others, rfl⟩ : ∃ ws, chars l depth x = .ok ws ∧ ∃ tail,
          itemChars l depth (y :: ys) = .ok tail ∧
            l.newline depth ++ (ws ++ (l.comma ++ tail)) = cs := by
        simpa [itemChars, bind_eq_ok] using written
      obtain ⟨space, comma, spaces'⟩ := spaced.comma
      simp only [comma, List.length_append, List.length_cons] at enough
      have next := ih (by simp) (fun x member => each x (.tail _ member)) others
        (show tail.length < fuel by omega)
      rw [← skipSpace_append spaces'] at next
      simp only [comma, List.cons_append, List.append_assoc]
      exact (items_item spaced back one ends_comma (by omega) (skipSpace_cons rfl _)).2 rfl next

theorem scalar_eq {k : Scalar} (other : ¬k.IsText) : scalar l k = scalar lined k := by
  cases k with
  | text | unpaired => exact absurd rfl other
  | _ => rfl

/-- A key is read as the text that it is written as. -/
theorem quotes_key {k : Scalar} (whole : k.Whole) {ws : List Char}
    (written : key l k = .ok ws) : Quotes k.spelled ws := by
  by_cases text : k.IsText
  · rw [Scalar.spelled_of_isText text]
    cases k with
    | text s =>
      cases written
      exact quotes_text l s
    | unpaired codes =>
      cases written
      exact quotes_unpaired whole
    | _ => cases text
  · rw [key_of_not_text text] at written
    obtain ⟨cs, plain, same⟩ := bind_eq_ok.1 written
    obtain rfl := Except.ok.inj same
    rw [scalar_eq text] at plain
    have spelled : k.spelled = .text (String.ofList cs) := by
      cases k with
      | text | unpaired => exact absurd rfl text
      | _ => simp [Scalar.spelled, plain]
    rw [spelled]
    exact quotes_text l _

/-- One entry is read, and then the end or the others. -/
theorem members_entry (spaced : l.Spaced) {k : Scalar} {x : Document} (whole : k.Whole)
    (back : ReadsBack l x) {depth : Nat} {name ws : List Char} (named : key l k = .ok name)
    (written : chars l depth x = .ok ws) {rest : List Char} (ends : Ends rest) {fuel : Nat}
    (enough : ws.length ≤ fuel) (front : Entries) {c : Char} {more : List Char}
    (next : skipSpace rest = c :: more) :
    (c = '}' →
      members (fuel + 1) front (skipSpace (l.newline depth ++ (name ++ (l.colon ++ (ws ++ rest))))) =
        .ok (front.insert k.spelled x.respelled, more)) ∧
    (c = ',' →
      members (fuel + 1) front (skipSpace (l.newline depth ++ (name ++ (l.colon ++ (ws ++ rest))))) =
        members fuel (front.insert k.spelled x.respelled) (skipSpace more)) := by
  obtain ⟨space, colon, spaces⟩ := spaced.colon
  obtain ⟨body, rfl, reads⟩ := quotes_key whole named
  obtain ⟨codes, read, spelled⟩ := reads (l.colon ++ (ws ++ rest))
  have value := back _ ws written rest fuel ends enough
  obtain ⟨d, after, same, shown, -⟩ := start_of_value value
  have mark : skipSpace (l.colon ++ (ws ++ rest)) = ':' :: (space ++ (ws ++ rest)) := by
    rw [colon, List.cons_append, skipSpace_cons rfl]
  have start : skipSpace (space ++ (ws ++ rest)) = ws ++ rest := by
    rw [skipSpace_append spaces, same, skipSpace_cons shown]
  rw [skipSpace_append (spaced.newline depth), List.cons_append, skipSpace_cons rfl, members, read,
    ok_bind]
  constructor
  · rintro rfl
    simp [mark, start, value, next, spelled]
  · rintro rfl
    simp [mark, start, value, next, spelled]

/-- Members are read back into whatever stands in front of them. -/
theorem members_entryChars (spaced : l.Spaced) {es : Entries} (some : es ≠ [])
    (each : ∀ e ∈ es, e.1.Whole ∧ ReadsBack l e.2) {depth : Nat} {cs : List Char}
    (written : entryChars l depth es = .ok cs) {gap : List Char} (spaces : ∀ c ∈ gap, isSpace c)
    (rest : List Char) (front : Entries) {fuel : Nat} (enough : cs.length < fuel) :
    members fuel front (skipSpace (cs ++ (gap ++ '}' :: rest))) =
      .ok (Document.respelledEntries front es, rest) := by
  induction es generalizing front cs fuel with
  | nil => exact absurd rfl some
  | cons e es ih =>
    obtain ⟨k, x⟩ := e
    obtain ⟨fuel, rfl⟩ : ∃ n, fuel = n + 1 := ⟨fuel - 1, by omega⟩
    obtain ⟨whole, back⟩ := each (k, x) (.head _)
    cases es with
    | nil =>
      obtain ⟨name, named, ws, one, rfl⟩ : ∃ name, key l k = .ok name ∧ ∃ ws,
          chars l depth x = .ok ws ∧ l.newline depth ++ (name ++ (l.colon ++ ws)) = cs := by
        simpa [entryChars, bind_eq_ok] using written
      simp only [List.length_append] at enough
      simp only [List.append_assoc]
      have closing : skipSpace (gap ++ '}' :: rest) = '}' :: rest := by
        rw [skipSpace_append spaces, skipSpace_cons rfl]
      exact (members_entry spaced whole back named one (ends_append spaces ends_brace) (by omega)
        front closing).1 rfl
    | cons f es =>
      obtain ⟨name, named, ws, one, tail, others, rfl⟩ : ∃ name, key l k = .ok name ∧ ∃ ws,
          chars l depth x = .ok ws ∧ ∃ tail, entryChars l depth (f :: es) = .ok tail ∧
            l.newline depth ++ (name ++ (l.colon ++ (ws ++ (l.comma ++ tail)))) = cs := by
        simpa [entryChars, bind_eq_ok] using written
      obtain ⟨space, comma, spaces'⟩ := spaced.comma
      simp only [comma, List.length_append, List.length_cons] at enough
      have next := ih (by simp) (fun e member => each e (.tail _ member)) others
        (front.insert k.spelled x.respelled) (show tail.length < fuel by omega)
      simp only [comma, List.cons_append, List.append_assoc]
      rw [(members_entry spaced whole back named one ends_comma (by omega) front
        (skipSpace_cons rfl _)).2 rfl, skipSpace_append spaces']
      exact next

/-- A list reads back if its items do. -/
theorem readsBack_list (spaced : l.Spaced) {xs : List Document} (each : ∀ x ∈ xs, ReadsBack l x) :
    ReadsBack l (.list xs) := by
  intro depth cs written rest fuel ends enough
  cases xs with
  | nil =>
    cases written
    obtain ⟨fuel, rfl⟩ : ∃ n, fuel = n + 1 := ⟨fuel - 1, by simp at enough; omega⟩
    rfl
  | cons x xs =>
    obtain ⟨body, items, rfl⟩ : ∃ body, itemChars l (depth + 1) (x :: xs) = .ok body ∧
        '[' :: (body ++ (l.newline depth ++ [']'])) = cs := by
      simpa [chars, bind_eq_ok] using written
    simp only [List.length_cons, List.length_append] at enough
    obtain ⟨fuel, rfl⟩ : ∃ n, fuel = n + 1 := ⟨fuel - 1, by omega⟩
    have read := items_itemChars spaced (by simp) each items (spaced.newline depth) rest
      (show body.length < fuel by omega)
    obtain ⟨c, more, same, other⟩ := start_of_items read
    rw [same] at read
    simp only [List.cons_append, List.append_assoc, List.nil_append, value, same]
    split
    case h_1 more closing => exact absurd (List.cons.inj closing).1 other
    case h_2 =>
      rw [read]
      simp [Document.respelled, Document.respelledItems_eq]

/-- A map reads back if its values do. -/
theorem readsBack_map (spaced : l.Spaced) {es : Entries}
    (each : ∀ e ∈ es, e.1.Whole ∧ ReadsBack l e.2) : ReadsBack l (.map es) := by
  intro depth cs written rest fuel ends enough
  cases es with
  | nil =>
    cases written
    obtain ⟨fuel, rfl⟩ : ∃ n, fuel = n + 1 := ⟨fuel - 1, by simp at enough; omega⟩
    rfl
  | cons e es =>
    obtain ⟨body, entries, rfl⟩ : ∃ body, entryChars l (depth + 1) (e :: es) = .ok body ∧
        '{' :: (body ++ (l.newline depth ++ ['}'])) = cs := by
      simpa [chars, bind_eq_ok] using written
    simp only [List.length_cons, List.length_append] at enough
    obtain ⟨fuel, rfl⟩ : ∃ n, fuel = n + 1 := ⟨fuel - 1, by omega⟩
    have read := members_entryChars spaced (by simp) each entries (spaced.newline depth) rest []
      (show body.length < fuel by omega)
    obtain ⟨more, same⟩ := start_of_members read
    rw [same] at read
    simp [value, same, read, Document.respelled]

/-- Every document is read back as it was respelled. -/
theorem readsBack_document (spaced : l.Spaced) {d : Document} (whole : d.Every Scalar.Whole) :
    ReadsBack l d := by
  induction d using Document.byParts with
  | scalar s => exact readsBack_scalar (Document.every_scalar.1 whole)
  | list xs ih =>
    exact readsBack_list spaced fun x member => ih x member (Document.every_list.1 whole x member)
  | map es ih =>
    exact readsBack_map spaced fun e member =>
      (Document.every_map.1 whole e member).imp_right (ih e member)

/-- The text of a document is read as the document respelled, whatever spaces follow. -/
theorem readChars_append {d : Document} (spaced : l.Spaced) (whole : d.Every Scalar.Whole)
    {cs : List Char} (written : chars l 0 d = .ok cs) {gap : List Char}
    (spaces : ∀ c ∈ gap, isSpace c) : readChars (cs ++ gap) = .ok d.respelled := by
  have read := readsBack_document spaced whole 0 cs written gap ((cs ++ gap).length + 1)
    (by simpa using ends_append spaces ends_nil) (by simp; omega)
  obtain ⟨c, more, same, shown, -⟩ := start_of_value read
  have start : skipSpace (cs ++ gap) = cs ++ gap := by rw [same, skipSpace_cons shown]
  have rest : skipSpace gap = [] := List.dropWhile_eq_nil_iff.2 spaces
  rw [readChars]
  simp only [start, read, ok_bind, rest]
  rfl

end Json
end Dialogue
