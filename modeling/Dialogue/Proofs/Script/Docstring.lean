import Dialogue.Proofs.Script.Definitions
import Dialogue.Proofs.Script.Generation
import Dialogue.Proofs.Script.Quoting

/-!
# Free text in generated code

The docstring of a module shows the name of its flow and that of a factory the label of its node, on
one line. A docstring reads back whole, whatever the text. With the literals, this tells what
becomes of any text that gets into generated code.
-/

namespace Dialogue.Script

open Literal

/-! ## Titles -/

theorem spells_docChar (c : Char) : Spells c (docChar c) := by
  unfold docChar
  split
  case h_3 backslash _ => exact spells_plainChar backslash
  all_goals exact .escape rfl

theorem passes_docChar (c : Char) : Passes true (docChar c) := by
  unfold docChar
  split
  case h_3 backslash quote => exact passes_plainChar quote backslash nofun
  all_goals exact passes_escape _ _

/-- The words of a text on one line, as a docstring shows them; a text without words is "node". -/
def titleChars (cs : List Char) : List Char :=
  if (joinWords (Text.words cs)).isEmpty then "node".toList else joinWords (Text.words cs)

/-- A docstring is the title with each character escaped. -/
theorem docChars_eq (cs : List Char) : docChars cs = (titleChars cs).flatMap docChar := by
  rw [docChars, titleChars]
  cases h : joinWords (Text.words cs) with
  | nil => rfl
  | cons c ds =>
    have written : 0 < (docChar c).length := (spells_docChar c).length_pos
    cases first : docChar c with
    | nil => simp [first] at written
    | cons d ws => simp [first]

theorem not_isBlank_of_mem_wordsFrom {word cs : List Char} (plain : ∀ c ∈ word, ¬Text.isBlank c) :
    ∀ w ∈ Text.wordsFrom word cs, ∀ c ∈ w, ¬Text.isBlank c := by
  have none : ∀ c ∈ ([] : List Char), ¬Text.isBlank c := nofun
  have done : ∀ c ∈ word.reverse, ¬Text.isBlank c := fun c member =>
    plain c (List.mem_reverse.mp member)
  induction cs generalizing word with
  | nil =>
    unfold Text.wordsFrom
    split
    · exact nofun
    · exact List.forall_mem_singleton.mpr done
  | cons c cs ih =>
    have fresh := ih none none
    unfold Text.wordsFrom
    split
    case isTrue =>
      split
      · exact fresh
      · exact List.forall_mem_cons.mpr ⟨done, fresh⟩
    case isFalse other =>
      have longer : ∀ d ∈ c :: word, ¬Text.isBlank d := List.forall_mem_cons.mpr ⟨other, plain⟩
      exact ih longer fun d member => longer d (List.mem_reverse.mp member)

theorem mem_joinWords {c : Char} {ws : List (List Char)} (member : c ∈ joinWords ws) :
    c = ' ' ∨ ∃ w ∈ ws, c ∈ w := by
  fun_induction joinWords ws with
  | case1 => simp at member
  | case2 w => exact .inr ⟨w, .head _, member⟩
  | case3 w ws _ ih =>
    obtain here | here := List.mem_append.mp member
    · exact .inr ⟨w, .head _, here⟩
    · obtain rfl | there := List.mem_cons.mp here
      · exact .inl rfl
      · exact (ih there).imp_right fun ⟨v, among, within⟩ => ⟨v, .tail _ among, within⟩

/-- A title is all on one line. -/
theorem mem_titleChars {c : Char} {cs : List Char} (member : c ∈ titleChars cs) :
    c ≠ '\t' ∧ c ≠ '\n' ∧ c ≠ '\r' := by
  have blanks : Text.isBlank '\t' ∧ Text.isBlank '\n' ∧ Text.isBlank '\r' := by decide
  unfold titleChars at member
  split at member
  · have plain : ∀ c ∈ "node".toList, c ≠ '\t' ∧ c ≠ '\n' ∧ c ≠ '\r' := by simp
    exact plain c member
  · obtain rfl | ⟨w, among, within⟩ := mem_joinWords member
    · decide
    · have plain : ¬Text.isBlank c := not_isBlank_of_mem_wordsFrom (by simp) w among c within
      refine ⟨?_, ?_, ?_⟩ <;> rintro rfl
      · exact plain blanks.1
      · exact plain blanks.2.1
      · exact plain blanks.2.2

/-- All characters of a docstring are visible. -/
theorem visible_docChars (cs : List Char) : ∀ d ∈ docChars cs, Visible d := by
  intro d member
  rw [docChars_eq] at member
  obtain ⟨c, among, written⟩ := List.mem_flatMap.mp member
  unfold docChar at written
  split at written
  case h_3 =>
    obtain ⟨tab, feed, back⟩ := mem_titleChars among
    exact visible_plainChar_of_ne tab feed back written
  all_goals exact visible_escape (by decide) written

/-! ## Docstrings -/

/-- Characters of a docstring that are written as they are. -/
def Bare (cs : List Char) : Prop := ∀ c ∈ cs, c ≠ '"' ∧ c ≠ '\\'

instance (cs : List Char) : Decidable (Bare cs) := List.decidableBAll _ cs

theorem Bare.spelled {cs : List Char} (bare : Bare cs) : Spelled cs cs := by
  have spelled : Spelled cs (cs.flatMap fun c => [c]) :=
    .flatMap fun c member => .self (bare c member).2
  rwa [List.flatMap_singleton'] at spelled

/-- A bare text leaves the reader inside the string. -/
theorem Bare.stringRun {cs : List Char} (bare : Bare cs) (body rest : List Char) :
    stringRun '"' true 0 body (cs ++ rest) = stringRun '"' true 0 (cs.reverse ++ body) rest := by
  have each : ∀ c ∈ cs, Passes true [c] := fun c member =>
    passes_self (bare c member).1 (bare c member).2 nofun
  have passes := stringRun_flatMap each body rest
  rwa [List.flatMap_singleton'] at passes

/-- A title never closes the docstring that it stands in. -/
theorem string?_docstring [CharNames] {before after : List Char} (start : Bare before)
    (stop : Bare after) (cs rest : List Char) :
    string? {}
        ('"' :: '"' :: '"' :: (before ++ docChars cs ++ after ++ '"' :: '"' :: '"' :: rest)) =
      some (.text ((before ++ titleChars cs ++ after).map Char.toNat), rest) := by
  have title : Spelled (titleChars cs) (docChars cs) := by
    rw [docChars_eq]
    exact .flatMap fun c _ => spells_docChar c
  have closes : Literal.stringRun '"' true 0 []
      (before ++ docChars cs ++ after ++ '"' :: '"' :: '"' :: rest) =
      some (before ++ docChars cs ++ after, rest) := by
    rw [List.append_assoc, List.append_assoc, start.stringRun, docChars_eq,
      stringRun_flatMap fun c _ => passes_docChar c, stop.stringRun, stringRun_quotes]
    simp
  exact string?_long ((start.spelled.append title).append stop.spelled) closes

/-! ## The docstrings of modules and factories -/

/-- What follows the name in the docstring of a module. -/
def moduleNote : String :=
  joinLines ["", "", "This file was generated from the visual flow editor.",
    "Customize the function handlers to implement your flow logic.", ""]

/-- What the docstring of a module says. -/
def moduleDoc (name : String) : List Char :=
  "Generated Pipecat Flow: ".toList ++ titleChars name.toList ++ moduleNote.toList

/-- What the docstring of a factory says. -/
def factoryDoc (label : String) : List Char :=
  "Create the ".toList ++ titleChars label.toList ++ " node.".toList

/-- The docstring of a module stands at the start of its text. -/
theorem headText_eq (m : Module) : headText m =
    "\"\"\"" ++ ("Generated Pipecat Flow: " ++ m.title ++ moduleNote ++ ("\"\"\"" ++ "\n")) := by
  have start : "\"\"\"Generated Pipecat Flow: " = "\"\"\"" ++ "Generated Pipecat Flow: " := rfl
  simp only [headText, start, joinLines, moduleNote, String.intercalate_cons_cons,
    String.intercalate_singleton, String.append_assoc, String.empty_append, String.append_empty]

/-- Reading from the start gives the docstring of the module. -/
theorem string?_module [CharNames] {m : Module} {name : String} (title : m.title = docText name) :
    ∃ more, string? {} m.text.toList =
      some (.text ((moduleDoc name).map Char.toNat), '\n' :: more) := by
  have start : Bare "Generated Pipecat Flow: ".toList := by decide
  have stop : Bare moduleNote.toList := by decide +kernel
  obtain ⟨more, text⟩ : ∃ more, m.text = headText m ++ more := by
    simp only [Module.text, String.append_assoc]
    exact ⟨_, rfl⟩
  have written : m.text.toList = '"' :: '"' :: '"' :: ("Generated Pipecat Flow: ".toList ++
      docChars name.toList ++ moduleNote.toList ++ '"' :: '"' :: '"' :: '\n' :: more.toList) := by
    rw [text, headText_eq, title, docText]
    simp only [String.append_assoc, String.toList_append, String.toList_ofList, List.append_assoc]
    rfl
  refine ⟨more.toList, ?_⟩
  rw [written]
  exact string?_docstring start stop name.toList ('\n' :: more.toList)

/-- Reading after the line of a factory gives its docstring. -/
theorem string?_factory [CharNames] (f : Factory) {label : String}
    (shown : (nonEmpty f.node.data.label).getD f.node.id = label) :
    ∃ doc more,
      f.text = "def " ++ factoryName f.node.id ++ "() -> NodeConfig:\n" ++ indent 1 ++ doc ∧
      string? {} doc.toList = some (.text ((factoryDoc label).map Char.toNat), '\n' :: more) := by
  have start : Bare "Create the ".toList := by decide
  have stop : Bare " node.".toList := by decide
  obtain ⟨rest, some, text⟩ : ∃ rest, rest ≠ [] ∧ f.text = joinLines
      (("def " ++ factoryName f.node.id ++ "() -> NodeConfig:") ::
        (indent 1 ++ "\"\"\"Create the " ++ nodeTitle f.node ++ " node.\"\"\"") :: rest) := by
    simp only [Factory.text, Factory.pieces, List.append_assoc, List.cons_append, List.nil_append]
    exact ⟨_, by simp, rfl⟩
  rw [joinLines_cons (List.cons_ne_nil _ _), joinLines_cons some] at text
  have opening : "\"\"\"Create the " = "\"\"\"" ++ "Create the " := rfl
  have ending : " node.\"\"\"" = " node." ++ "\"\"\"" := rfl
  have head : "() -> NodeConfig:\n" = "() -> NodeConfig:" ++ "\n" := rfl
  refine ⟨"\"\"\"" ++ ("Create the " ++ docText label ++ " node." ++
    ("\"\"\"" ++ "\n" ++ joinLines rest)), (joinLines rest).toList, ?_, ?_⟩
  · rw [text, opening, ending, head, nodeTitle, shown]
    simp only [String.append_assoc]
  · have read := string?_docstring start stop label.toList ('\n' :: (joinLines rest).toList)
    simp only [String.toList_append, docText, String.toList_ofList]
    exact read

/-! ## Any text -/

/-- What becomes of a text that gets into generated code: as a string literal, as a block literal,
as the name of a flow and as the title of a node. -/
structure ReadsBack [CharNames] (s : String) : Prop where
  string : string? {} (string s).toList = some (.text (s.toList.map Char.toNat), [])
  visible_string : ∀ c ∈ (Script.string s).toList, Visible c
  block (whole : endQuotes s.toList = 0 ∨ endQuotes s.toList % 3 ≠ 0) :
    string? {} (block s).toList = some (.text (s.toList.map Char.toNat), [])
  /-- The literal ends before its last quote, and its text has a backslash for the last quote. -/
  block_early (some : 0 < endQuotes s.toList) (none : endQuotes s.toList % 3 = 0) :
    string? {} (Script.block s).toList =
      .some (.text ((s.toList.dropLast ++ ['\\']).map Char.toNat), ['"'])
  shown_block : ∀ c ∈ (Script.block s).toList, VisibleOrSpacing c
  visible_docText : ∀ c ∈ (docText s).toList, Visible c
  moduleDoc (settings : Settings) (flow : Flow) (text : String) (name : flow.info.name = s)
    (made : generate settings flow = .ok text) :
    ∃ more, string? {} text.toList = .some (.text ((moduleDoc s).map Char.toNat), '\n' :: more)
  factoryDoc (f : Factory) (shown : (nonEmpty f.node.data.label).getD f.node.id = s) :
    ∃ doc more,
      f.text = "def " ++ factoryName f.node.id ++ "() -> NodeConfig:\n" ++ indent 1 ++ doc ∧
      string? {} doc.toList = .some (.text ((factoryDoc s).map Char.toNat), '\n' :: more)

theorem readsBack [CharNames] (s : String) : ReadsBack s where
  string := by
    have ends : ([] : List Char).head? ≠ some '"' := nofun
    rw [Script.string, String.toList_ofList, ← string?_string s.toList ends, List.append_nil]
  visible_string := by
    rw [Script.string, String.toList_ofList]
    exact visible_stringChars s.toList
  block whole := by
    rw [Script.block, String.toList_ofList, ← string?_block whole [], List.append_nil]
  block_early some none := by
    rw [Script.block, String.toList_ofList, ← string?_block_early some none [], List.append_nil]
  shown_block := by
    rw [Script.block, String.toList_ofList]
    exact shown_blockChars s.toList
  visible_docText := by
    rw [docText, String.toList_ofList]
    exact visible_docChars s.toList
  moduleDoc settings flow text name made := by
    obtain ⟨m, moduleMade, written⟩ := bind_eq_ok.mp made
    obtain rfl := Except.ok.inj written
    obtain ⟨factories, -, -, rfl⟩ := moduleOf_eq_ok.1 moduleMade
    exact string?_module (congrArg docText name)
  factoryDoc f shown := string?_factory f shown

/-- Three quotes are read as two and a backslash, and a quote is left. -/
theorem block_unclosed :
    string? {} (block "\"\"\"").toList = some (.text ("\"\"\\".toList.map Char.toNat), ['"']) ∧
      ¬∀ s : String, string? {} (block s).toList = some (.text (s.toList.map Char.toNat), []) := by
  have early : string? {} (block "\"\"\"").toList =
      some (.text ("\"\"\\".toList.map Char.toNat), ['"']) := by
    rw [block, String.toList_ofList, ← List.append_nil (blockChars _)]
    exact string?_block_early (by decide) (by decide) []
  refine ⟨early, fun whole => ?_⟩
  have left := congrArg (Option.map Prod.snd) ((whole "\"\"\"").symm.trans early)
  cases left

end Dialogue.Script
