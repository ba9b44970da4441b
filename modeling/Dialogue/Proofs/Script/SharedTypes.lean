import Dialogue.Proofs.Script.TypeNames

/-!
# Sharing of result types

Functions have one result type just if its name would be the same for them and its fields are the
same. What is registered keeps its name and its fields, whatever functions come later.
-/

namespace Dialogue.Script

/-! ## Fields -/

/-- A field of a result type. -/
structure Field where
  key : String
  hint : String
  optional : Bool
deriving DecidableEq

def Field.line (d : Field) : String :=
  indent 1 ++ d.key ++ ": " ++ d.hint ++ if d.optional then " | None" else ""

/-- The fields of a function's result type, one for each of its properties. -/
def fields (f : Signature) : List Field :=
  (propertyList f).map fun p =>
    ⟨p.1, (argumentType p.2).hint, !(f.required.getD []).contains p.1⟩

theorem typeBody_eq (f : Signature) : typeBody f = "\n".intercalate ((fields f).map Field.line) := by
  rw [typeBody, fields, List.map_map]
  congr 1
  refine List.map_congr_left fun p _ => ?_
  simp only [fieldLine, Function.comp_apply, Field.line]
  cases (f.required.getD []).contains p.1 <;> rfl

/-- The parts of the field can be told apart in its line. -/
structure Field.Legible (d : Field) : Prop where
  key : ':' ∉ d.key.toList
  hint : ' ' ∉ d.hint.toList ∧ '\n' ∉ d.hint.toList

/-- What stands before the first of some characters is known from the whole text. -/
theorem append_cons_inj {c : Char} {as bs xs ys : List Char} (left : c ∉ as) (right : c ∉ bs)
    (same : as ++ c :: xs = bs ++ c :: ys) : as = bs ∧ xs = ys := by
  induction as generalizing bs with
  | nil =>
    cases bs with
    | nil => exact ⟨rfl, (List.cons.inj same).2⟩
    | cons b bs =>
      obtain rfl : c = b := (List.cons.inj same).1
      exact absurd (.head _) right
  | cons a as ih =>
    cases bs with
    | nil =>
      obtain rfl : a = c := (List.cons.inj same).1
      exact absurd (.head _) left
    | cons b bs =>
      rw [List.cons_append, List.cons_append, List.cons.injEq] at same
      rw [List.mem_cons, not_or] at left right
      obtain ⟨rfl, rest⟩ := ih left.2 right.2 same.2
      exact ⟨by rw [same.1], rest⟩

/-- What follows the key of a field in its line. -/
def Field.mark (d : Field) : List Char := d.hint.toList ++ if d.optional then " | None".toList else []

theorem Field.toList_line (d : Field) :
    d.line.toList = (indent 1).toList ++ (d.key.toList ++ ':' :: ' ' :: d.mark) := by
  cases optional : d.optional <;> simp [Field.line, Field.mark, optional]

theorem Field.feed_not_mem_mark {d : Field} (legible : d.Legible) : '\n' ∉ d.mark := by
  rw [Field.mark, List.mem_append, not_or]
  refine ⟨legible.hint.2, ?_⟩
  split <;> decide

/-- The mark of a field tells its hint and whether it may be left out. -/
theorem Field.mark_inj {d e : Field} (left : d.Legible) (right : e.Legible)
    (same : d.mark = e.mark) : d.hint = e.hint ∧ d.optional = e.optional := by
  have blank : " | None".toList = ' ' :: "| None".toList := rfl
  unfold Field.mark at same
  rw [blank] at same
  cases first : d.optional <;> cases second : e.optional <;>
    simp only [first, second, Bool.false_eq_true, if_false, if_true, List.append_nil] at same
  · exact ⟨String.toList_inj.1 same, rfl⟩
  · exact absurd (by rw [same]; simp) left.hint.1
  · exact absurd (by rw [← same]; simp) right.hint.1
  · exact ⟨String.toList_inj.1 (append_cons_inj left.hint.1 right.hint.1 same).1, rfl⟩

/-- Fields are known from their lines, each with its end. -/
theorem lines_inj {ds es : List Field} (left : ∀ d ∈ ds, d.Legible) (right : ∀ e ∈ es, e.Legible)
    (same : ds.flatMap (fun d => d.line.toList ++ ['\n']) =
      es.flatMap fun e => e.line.toList ++ ['\n']) : ds = es := by
  induction ds generalizing es with
  | nil =>
    cases es with
    | nil => rfl
    | cons e es => simp at same
  | cons d ds ih =>
    cases es with
    | nil => simp at same
    | cons e es =>
      rw [List.forall_mem_cons] at left right
      simp only [List.flatMap_cons, Field.toList_line, List.append_assoc, List.cons_append,
        List.nil_append, List.append_cancel_left_eq] at same
      obtain ⟨key, rest⟩ := append_cons_inj left.1.key right.1.key same
      obtain ⟨mark, rest⟩ := append_cons_inj (Field.feed_not_mem_mark left.1)
        (Field.feed_not_mem_mark right.1) (List.cons.inj rest).2
      obtain ⟨hint, optional⟩ := Field.mark_inj left.1 right.1 mark
      have first : d = e := by
        obtain ⟨⟩ := d
        obtain ⟨⟩ := e
        simp_all [String.toList_inj]
      rw [first, ih left.2 right.2 (by
        simpa only [Field.toList_line, List.append_assoc, List.cons_append] using rest)]

theorem feed_of_intercalate {α : Type} (text : α → List Char) {items : List α}
    (some : items ≠ []) : ['\n'].intercalate (items.map text) ++ ['\n'] =
      items.flatMap fun a => text a ++ ['\n'] := by
  induction items with
  | nil => exact absurd rfl some
  | cons a items ih =>
    cases items with
    | nil => simp
    | cons b items =>
      rw [List.map_cons, List.map_cons, List.intercalate_cons_cons, List.append_assoc,
        ← List.map_cons, ih (List.cons_ne_nil b items)]
      simp

/-- The body of a type tells its fields. -/
theorem body_inj {ds es : List Field} (left : ∀ d ∈ ds, d.Legible) (right : ∀ e ∈ es, e.Legible) :
    "\n".intercalate (ds.map Field.line) = "\n".intercalate (es.map Field.line) ↔ ds = es := by
  refine ⟨fun same => ?_, fun same => by rw [same]⟩
  have chars := congrArg String.toList same
  simp only [String.toList_intercalate, List.map_map] at chars
  have line (d : Field) (ds : List Field) (lines : [] =
      ['\n'].intercalate ((d :: ds).map (String.toList ∘ Field.line))) : False := by
    have whole := feed_of_intercalate (String.toList ∘ Field.line) (List.cons_ne_nil d ds)
    rw [← lines] at whole
    simp [Field.toList_line, indent] at whole
  match ds, es with
  | [], [] => rfl
  | [], e :: es => exact (line e es chars).elim
  | d :: ds, [] => exact (line d ds chars.symm).elim
  | d :: ds, e :: es =>
    refine lines_inj left right ?_
    have whole := congrArg (· ++ ['\n']) chars
    rwa [show "\n".toList = ['\n'] from rfl,
      feed_of_intercalate (String.toList ∘ Field.line) (List.cons_ne_nil d ds),
      feed_of_intercalate (String.toList ∘ Field.line) (List.cons_ne_nil e es)] at whole

/-! ## Functions of valid names -/

/-- The function and its properties have names that a flow may have. -/
def Named (f : Signature) : Prop := ∀ name ∈ f.names, Identifier.isIdentifier name

theorem mem_of_isIdentifier {s : String} (valid : Identifier.isIdentifier s) {c : Char}
    (member : c ∈ s.toList) : c = '\n' ∨ Identifier.isContinue c := by
  by_cases feed : c = '\n'
  · exact .inl feed
  · simp only [Identifier.isIdentifier, Bool.and_eq_true] at valid
    exact .inr (Identifier.isContinue_of_mem valid.1 (Identifier.mem_dropFinalFeed feed member))

theorem hint_mem (p : Property) :
    (argumentType p).hint ∈ ["int", "float", "bool", "list", "dict", "str"] := by
  unfold argumentType
  split <;> simp

/-- Fields of valid functions are legible. -/
theorem Named.legible {f : Signature} (named : Named f) : ∀ d ∈ fields f, d.Legible := by
  rw [fields, List.forall_mem_map]
  intro p member
  have valid := named p.1 (List.mem_cons_of_mem f.name (List.mem_map_of_mem member))
  constructor
  · intro colon
    exact absurd (mem_of_isIdentifier valid colon) (by decide)
  · have plain : ∀ hint ∈ ["int", "float", "bool", "list", "dict", "str"],
        ' ' ∉ hint.toList ∧ '\n' ∉ hint.toList := by decide
    exact plain _ (hint_mem p.2)

/-- Result types are written the same just if their fields are the same. -/
theorem typeBody_inj {f g : Signature} (left : Named f) (right : Named g) :
    typeBody f = typeBody g ↔ fields f = fields g := by
  rw [typeBody_eq, typeBody_eq]
  exact body_inj left.legible right.legible

/-! ### Keys -/

/-- Name and fields in one text. -/
def typeKey (f : Signature) : String := typeName f.name ++ "\n" ++ typeBody f

/-- What may stand in a name has one capital, which may stand where it may. -/
theorem upperChars_word {c : Char} (word : Identifier.isContinue c) :
    ∃ u, Text.upperChars c = [u] ∧ Identifier.isContinue u ∧
      Identifier.isStart u = Identifier.isStart c := by
  obtain ⟨u, upper, -, -, same⟩ := upperChars_of_ascii (ascii_of_isContinue word)
  exact ⟨u, upper, same word⟩

theorem mem_typeStem {s : String} (valid : Identifier.isIdentifier s) :
    ∀ c ∈ (typeStem s).toList, c = '\n' ∨ Identifier.isContinue c := by
  refine forall_mem_typeStem (fun c word u member => ?_) fun c => mem_of_isIdentifier valid
  rcases word with rfl | word
  · exact .inl (List.mem_singleton.1 member)
  · obtain ⟨v, upper, continues, -⟩ := upperChars_word word
    rw [upper, List.mem_singleton] at member
    exact .inr (member ▸ continues)

/-- A type has no blank in its name, so names and bodies do not mix. -/
theorem blank_not_mem_typeName {f : Signature} (named : Named f) :
    ' ' ∉ (typeName f.name).toList := by
  intro blank
  rw [typeName, String.toList_append, List.mem_append] at blank
  rcases blank with stem | word
  · exact absurd (mem_typeStem (named f.name (.head _)) ' ' stem) (by decide)
  · exact absurd word (by decide)

theorem exists_typeBody {f : Signature} (some : propertyList f ≠ []) :
    ∃ body, (typeBody f).toList = ' ' :: body := by
  obtain ⟨p, ps, properties⟩ := List.exists_cons_of_ne_nil some
  rw [← List.head?_eq_some_iff, typeBody_eq, fields, properties, List.map_cons, List.map_cons,
    String.toList_intercalate, List.map_cons, Field.toList_line]
  cases ps with
  | nil => simp [indent]
  | cons q ps =>
    rw [List.map_cons, List.map_cons, List.map_cons, List.intercalate_cons_cons]
    simp [indent]

/-- The fields start where the first blank stands. -/
theorem typeKey_inj {f g : Signature} (left : Named f) (right : Named g)
    (some : propertyList f ≠ []) (others : propertyList g ≠ []) :
    typeKey f = typeKey g ↔ typeName f.name = typeName g.name ∧ fields f = fields g := by
  rw [← typeBody_inj left right]
  refine ⟨fun same => ?_, fun ⟨name, body⟩ => by rw [typeKey, typeKey, name, body]⟩
  obtain ⟨fs, first⟩ := exists_typeBody some
  obtain ⟨gs, second⟩ := exists_typeBody others
  have chars := congrArg String.toList same
  have blank {f : Signature} (named : Named f) :
      ' ' ∉ (typeName f.name).toList ++ "\n".toList := by
    rw [List.mem_append, not_or]
    exact ⟨blank_not_mem_typeName named, by decide⟩
  simp only [typeKey, String.toList_append, first, second] at chars
  obtain ⟨names, bodies⟩ := append_cons_inj (blank left) (blank right) chars
  refine ⟨?_, String.toList_inj.1 (by rw [first, second, bodies])⟩
  simpa [String.toList_inj] using names

/-! ## Registering -/

namespace Registry

variable {reserved : List String} {types more : Registry} {f g : Signature} {fs gs : List Signature}

/-- The type that a function adds where it has none. -/
def fresh (reserved : List String) (types : Registry) (f : Signature) : ResultType :=
  ⟨chooseName (types.names ++ reserved) f.name, typeName f.name, typeBody f, f.name⟩

/-- Registering adds a type at the end, or nothing where there is nothing to add. -/
theorem register_cases (reserved : List String) (types : Registry) (f : Signature) :
    (propertyList f = [] ∨ ∃ t, types.find? (typeName f.name) (typeBody f) = some t) ∧
        types.register reserved f = types ∨
      (propertyList f ≠ [] ∧ types.find? (typeName f.name) (typeBody f) = none) ∧
        types.register reserved f = types ++ [types.fresh reserved f] := by
  simp only [register]
  split
  case isTrue known =>
    rw [Bool.or_eq_true, List.isEmpty_iff, Option.isSome_iff_exists] at known
    exact .inl ⟨known, rfl⟩
  case isFalse new =>
    rw [Bool.or_eq_true, not_or, List.isEmpty_iff, Option.not_isSome_iff_eq_none] at new
    exact .inr ⟨new, rfl⟩

/-- Types are only ever added at the end. -/
theorem prefix_register (reserved : List String) (types : Registry) (f : Signature) :
    types <+: types.register reserved f := by
  obtain ⟨-, same⟩ | ⟨-, added⟩ := register_cases reserved types f
  · rw [same]
  · exact ⟨_, added.symm⟩

theorem prefix_foldl (reserved : List String) (types : Registry) (fs : List Signature) :
    types <+: fs.foldl (register reserved) types := by
  induction fs generalizing types with
  | nil => exact List.prefix_rfl
  | cons f fs ih => exact (prefix_register reserved types f).trans (ih _)

theorem ofFunctions_append (reserved : List String) (fs gs : List Signature) :
    ofFunctions reserved (fs ++ gs) = gs.foldl (register reserved) (ofFunctions reserved fs) :=
  List.foldl_append

/-- Every type was made for one of the functions when that was registered. -/
theorem exists_of_mem_ofFunctions {t : ResultType} (member : t ∈ ofFunctions reserved fs) :
    ∃ f ∈ fs, ∃ before, t = fresh reserved before f := by
  induction fs using List.reverseRecOn with
  | nil => cases member
  | append_singleton fs f ih =>
    rw [ofFunctions_append, List.foldl_cons, List.foldl_nil] at member
    have earlier (there : t ∈ ofFunctions reserved fs) :
        ∃ g ∈ fs ++ [f], ∃ before, t = fresh reserved before g := by
      obtain ⟨g, among, made⟩ := ih there
      exact ⟨g, List.mem_append_left _ among, made⟩
    obtain ⟨-, same⟩ | ⟨-, added⟩ := register_cases reserved (ofFunctions reserved fs) f
    · exact earlier (same ▸ member)
    · rw [added, List.mem_append, List.mem_singleton] at member
      exact member.elim earlier fun made => ⟨f, by simp, _, made⟩

/-! ### Names given -/

/-- A function without properties has no type. -/
theorem nameOf?_none (none : propertyList f = []) : types.nameOf? f = Option.none := by
  simp [nameOf?, none]

theorem nameOf?_some (some : propertyList f ≠ []) : types.nameOf? f =
    (types.find? (typeName f.name) (typeBody f)).map (·.name) := by
  simp [nameOf?, some]

theorem propertyList_of_nameOf? {name : String} (named : types.nameOf? f = some name) :
    propertyList f ≠ [] := by
  intro none
  rw [nameOf?_none none] at named
  cases named

/-- The name of a function is the name of a type that was made for it. -/
theorem exists_of_nameOf? {name : String} (named : types.nameOf? f = some name) :
    ∃ t ∈ types, t.name = name ∧ t.base = typeName f.name ∧ t.body = typeBody f := by
  rw [nameOf?_some (propertyList_of_nameOf? named), Option.map_eq_some_iff] at named
  obtain ⟨t, found, rfl⟩ := named
  have key := List.find?_some found
  simp only [Bool.and_eq_true, decide_eq_true_eq] at key
  exact ⟨t, List.mem_of_find?_eq_some found, rfl, key⟩

/-- A type just added is found for its function. -/
theorem find?_fresh (missing : types.find? (typeName f.name) (typeBody f) = none) :
    find? (types ++ [types.fresh reserved f]) (typeName f.name) (typeBody f) =
      some (types.fresh reserved f) := by
  rw [find?] at missing ⊢
  rw [List.find?_append, missing]
  simp [fresh]

/-- A function that has been registered has its type. -/
theorem exists_find?_register (reserved : List String) (types : Registry)
    (some : propertyList f ≠ []) :
    ∃ t, (types.register reserved f).find? (typeName f.name) (typeBody f) = .some t := by
  obtain ⟨none | known, same⟩ | ⟨⟨-, missing⟩, added⟩ := register_cases reserved types f
  · exact absurd none some
  · rwa [same]
  · exact ⟨types.fresh reserved f, by rw [added, find?_fresh missing]⟩

/-- Later functions do not change the name of one that has been registered. -/
theorem nameOf?_of_prefix (start : types.register reserved f <+: more) :
    more.nameOf? f = (types.register reserved f).nameOf? f := by
  by_cases none : propertyList f = []
  · rw [nameOf?_none none, nameOf?_none none]
  · obtain ⟨t, found⟩ := exists_find?_register reserved types none
    rw [nameOf?_some none, nameOf?_some none, found]
    exact congrArg _ (start.find?_eq_some found)

/-- What the calls return for some functions, one after the other. -/
def calls (reserved : List String) (types : Registry) : List Signature → List (Option String)
  | [] => []
  | f :: fs =>
    (types.register reserved f).nameOf? f :: calls reserved (types.register reserved f) fs

/-- A function keeps the type it was given. -/
theorem calls_eq (reserved : List String) (types : Registry) (fs : List Signature) :
    calls reserved types fs = fs.map (fs.foldl (register reserved) types).nameOf? := by
  induction fs generalizing types with
  | nil => rfl
  | cons f fs ih =>
    have first := nameOf?_of_prefix (prefix_foldl reserved (types.register reserved f) fs)
    rw [calls, ih, List.map_cons, List.foldl_cons, first]

theorem calls_append (reserved : List String) (types : Registry) (fs gs : List Signature) :
    calls reserved types (fs ++ gs) =
      calls reserved types fs ++ calls reserved (fs.foldl (register reserved) types) gs := by
  induction fs generalizing types with
  | nil => rfl
  | cons f fs ih => rw [List.cons_append, calls, calls, ih, List.cons_append, List.foldl_cons]

theorem eraseDups_concat (names : List String) (name : String) : (names ++ [name]).eraseDups =
    if name ∈ names then names.eraseDups else names.eraseDups ++ [name] := by
  rw [List.eraseDups_append]
  split
  case isTrue known => simp [List.removeAll, known]
  case isFalse new => simp [List.removeAll, new, List.eraseDups_cons]

/-- The names of the types are those returned, in the order of first use. -/
theorem names_ofFunctions (reserved : List String) (fs : List Signature) :
    (ofFunctions reserved fs).names = ((calls reserved [] fs).filterMap id).eraseDups := by
  induction fs using List.reverseRecOn with
  | nil => rfl
  | append_singleton fs f ih =>
    have given := calls_append reserved [] fs [f]
    rw [show fs.foldl (register reserved) [] = ofFunctions reserved fs from rfl, calls, calls]
      at given
    rw [ofFunctions_append, List.foldl_cons, List.foldl_nil, given, List.filterMap_append]
    generalize ofFunctions reserved fs = types at ih ⊢
    have member {name : String} : name ∈ (calls reserved [] fs).filterMap id ↔ name ∈ types.names := by
      rw [ih, List.mem_eraseDups]
    obtain ⟨none | ⟨t, found⟩, same⟩ | ⟨⟨some, missing⟩, added⟩ := register_cases reserved types f
    · rw [same, nameOf?_none none, ih]
      simp
    · have known : t.name ∈ types.names := List.mem_map_of_mem (List.mem_of_find?_eq_some found)
      by_cases none : propertyList f = []
      · rw [same, nameOf?_none none, ih]
        simp
      · rw [same, nameOf?_some none, found, Option.map_some, List.filterMap_cons, id_eq,
          List.filterMap_nil, eraseDups_concat, if_pos (member.2 known), ih]
    · have new : (types.fresh reserved f).name ∉ types.names := fun known =>
        chooseName_not_mem (types.names ++ reserved) f.name (List.mem_append_left _ known)
      rw [added, nameOf?_some some, find?_fresh missing, Option.map_some, List.filterMap_cons, id_eq,
        List.filterMap_nil, eraseDups_concat, if_neg fun given => new (member.1 given), ← ih]
      simp [names]

/-! ### Free names -/

/-- The name is the first one free: the plain one, or else the one with the least number. -/
def IsFirstFree (taken : List String) (function name : String) : Prop :=
  name ∉ taken ∧ (name = typeName function ∨
    typeName function ∈ taken ∧ ∃ k, 2 ≤ k ∧ name = numbered (typeStem function) k ∧
      ∀ j, 2 ≤ j → j < k → numbered (typeStem function) j ∈ taken)

/-- The name chosen is the first that is free. -/
theorem isFirstFree_chooseName (taken : List String) (function : String) :
    IsFirstFree taken function (chooseName taken function) := by
  refine ⟨chooseName_not_mem taken function, ?_⟩
  simp only [chooseName, List.contains_iff_mem]
  split
  case isTrue known => exact .inr ⟨known, exists_freeName taken (typeStem function) 2 _⟩
  case isFalse => exact .inl rfl

/-! ## Sharing -/

/-- The definition of a type lists the fields of a function, line by line. -/
def Lists (t : ResultType) (f : Signature) : Prop :=
  t.definition = "class " ++ t.name ++ "(FlowResult):\n" ++ indent 1 ++
    "\"\"\"Result type for " ++ t.function ++ " function\"\"\"\n" ++
    "\n".intercalate ((fields f).map Field.line) ++ "\n"

/-- How some functions, registered one after the other, share their types. -/
structure Sharing (reserved : List String) (fs : List Signature) : Prop where
  /-- What each call returned is still the name of its function in the end. -/
  returned : calls reserved [] fs = fs.map (ofFunctions reserved fs).nameOf?
  none_iff : ∀ f ∈ fs, (ofFunctions reserved fs).nameOf? f = none ↔ propertyList f = []
  /-- A name has a single definition, of the fields of every function that was given the name. -/
  defined : ∀ f ∈ fs, ∀ name, (ofFunctions reserved fs).nameOf? f = some name →
    name ∉ reserved ∧ ∃ t ∈ ofFunctions reserved fs, t.name = name ∧ Lists t f ∧
      ∀ u ∈ ofFunctions reserved fs, u.name = name → u = t
  /-- Functions share a name just if their types would have the same one and the same fields. -/
  shared : ∀ f ∈ fs, ∀ g ∈ fs, ∀ m n, (ofFunctions reserved fs).nameOf? f = some m →
    (ofFunctions reserved fs).nameOf? g = some n →
      (m = n ↔ typeName f.name = typeName g.name ∧ fields f = fields g) ∧
      (m = n ↔ typeKey f = typeKey g)
  nodup : (ofFunctions reserved fs).names.Nodup
  firstUse : (ofFunctions reserved fs).names = ((calls reserved [] fs).filterMap id).eraseDups
  /-- What is registered is not changed by what comes later. -/
  kept : ∀ before later, fs = before ++ later →
    ofFunctions reserved before <+: ofFunctions reserved fs
  /-- A new type takes the first name that is free; the search for it ends. -/
  named : ∀ before f later, fs = before ++ f :: later →
    ofFunctions reserved (before ++ [f]) = ofFunctions reserved before ∨
    ∃ t, ofFunctions reserved (before ++ [f]) = ofFunctions reserved before ++ [t] ∧
      IsFirstFree ((ofFunctions reserved before).names ++ reserved) f.name t.name

/-- Types of one name are one type. -/
theorem eq_of_name_eq {t u : ResultType} (first : t ∈ ofFunctions reserved fs)
    (second : u ∈ ofFunctions reserved fs) (same : t.name = u.name) : t = u :=
  List.inj_on_of_nodup_map (apart_ofFunctions reserved fs).nodup first second same

/-- Functions with one body share their fields. -/
theorem lists_of_body {t : ResultType} (same : t.body = typeBody f) : Lists t f := by
  rw [Lists, ← typeBody_eq, ← same]
  rfl

/-- A function that is among them has a name, if it has properties. -/
theorem nameOf?_eq_none (among : f ∈ fs) :
    (ofFunctions reserved fs).nameOf? f = none ↔ propertyList f = [] := by
  refine ⟨fun missing => ?_, nameOf?_none⟩
  by_contra some
  obtain ⟨before, later, rfl⟩ := List.append_of_mem among
  obtain ⟨t, found⟩ := exists_find?_register reserved (ofFunctions reserved before) some
  rw [ofFunctions_append, List.foldl_cons,
    nameOf?_of_prefix (prefix_foldl reserved _ later), nameOf?_some some, found] at missing
  cases missing

/-- A name goes with the name before its number and with the fields. -/
theorem name_eq_iff {m n : String} (first : (ofFunctions reserved fs).nameOf? f = some m)
    (second : (ofFunctions reserved fs).nameOf? g = some n) :
    m = n ↔ typeName f.name = typeName g.name ∧ typeBody f = typeBody g := by
  constructor
  · rintro rfl
    obtain ⟨t, left, name, base, body⟩ := exists_of_nameOf? first
    obtain ⟨u, right, name', base', body'⟩ := exists_of_nameOf? second
    obtain rfl := eq_of_name_eq left right (name.trans name'.symm)
    exact ⟨base.symm.trans base', body.symm.trans body'⟩
  · rintro ⟨base, body⟩
    rw [nameOf?_some (propertyList_of_nameOf? first), base, body,
      ← nameOf?_some (propertyList_of_nameOf? second), second] at first
    exact (Option.some.inj first).symm

/-- Functions whose names and properties are identifiers share their types in this way. -/
theorem sharing_of_identifiers (reserved : List String) {fs : List Signature}
    (valid : ∀ f ∈ fs, ∀ name ∈ f.names, Identifier.isIdentifier name) : Sharing reserved fs where
  returned := calls_eq reserved [] fs
  none_iff _ := nameOf?_eq_none
  defined f among name named := by
    obtain ⟨t, member, rfl, -, body⟩ := exists_of_nameOf? named
    exact ⟨(apart_ofFunctions reserved fs).free t.name (List.mem_map_of_mem member), t, member, rfl,
      lists_of_body body, fun u other same => eq_of_name_eq other member same⟩
  shared f left g right m n first second := by
    have same := name_eq_iff first second
    rw [typeBody_inj (valid f left) (valid g right)] at same
    have keys := typeKey_inj (valid f left) (valid g right) (propertyList_of_nameOf? first)
      (propertyList_of_nameOf? second)
    exact ⟨same, same.trans keys.symm⟩
  nodup := (apart_ofFunctions reserved fs).nodup
  firstUse := names_ofFunctions reserved fs
  kept before later split := by
    rw [split, ofFunctions_append]
    exact prefix_foldl reserved _ later
  named before f later split := by
    rw [ofFunctions_append, List.foldl_cons, List.foldl_nil]
    obtain ⟨-, same⟩ | ⟨-, added⟩ := register_cases reserved (ofFunctions reserved before) f
    · exact .inl same
    · exact .inr ⟨_, added, isFirstFree_chooseName _ f.name⟩

/-- Three functions whose types would have one name, two of them with the same fields, and one that
has no type. -/
def lookups : List Signature := [
  { name := "look_up", description := "", properties := some [("key", { type := "string" })] },
  { name := "lookUp", description := "", properties := some [("key", { type := "integer" })] },
  { name := "look__up", description := "", properties := some [("key", { type := "string" })] },
  { name := "leave", description := "" }]

theorem sharing_lookups : (∀ f ∈ lookups, ∀ name ∈ f.names, Identifier.isIdentifier name) ∧
    Sharing ["LookUpResult"] lookups := by
  have valid : ∀ f ∈ lookups, ∀ name ∈ f.names, Identifier.isIdentifier name := by decide
  exact ⟨valid, sharing_of_identifiers ["LookUpResult"] valid⟩

example : calls ["LookUpResult"] [] lookups =
    [some "LookUp2Result", some "LookUp3Result", some "LookUp2Result", none] := by decide +kernel

end Registry
end Dialogue.Script
