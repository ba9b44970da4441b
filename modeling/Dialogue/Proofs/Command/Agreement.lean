import Dialogue.Proofs.Flow.Reload
import Dialogue.Proofs.Script.Form

/-!
# What is found valid can be generated

Validating a flow file and generating from it come to the same: the flow of the file is whole, or
the issues of its graph are told. Only a condition whose value cannot be written tells them apart,
or a number that is too long, which validating does not look at.
-/

namespace Dialogue.Command

open Literal (CharNames)

variable {vars : Settings.Variables} {look : String → Entry} {path text : String} {f : Flow}

/-! ## Reports -/

theorem exitCode_failed (err : String) (e : Failure) : (Report.failed err e).exitCode = 1 := by
  cases e <;> rfl

theorem exitCode_produced (err out : String) (output : Option String) :
    (Report.produced err out output).exitCode = 0 := by
  unfold Report.produced
  split <;> rfl

theorem fault_produced (err out : String) (output : Option String) :
    (Report.produced err out output).fault = none := by
  unfold Report.produced
  split <;> rfl

/-! ## Arguments -/

/-- An argument that names a file, not an option. -/
def IsOperand (arg : String) : Prop := ∀ c cs, arg.toList ≠ '-' :: c :: cs

/-- A path that looks like no option is taken for none. -/
theorem optionsIn?_of_isOperand (operand : IsOperand path) (specs : List OptionSpec) :
    optionsIn? specs path = none := by
  unfold optionsIn?
  split
  case h_1 cs chars => exact absurd chars (operand '-' cs)
  case h_2 c cs _ chars => exact absurd chars (operand c cs)
  case h_3 => rfl

theorem ne_dashes_of_isOperand (operand : IsOperand path) : path ≠ "--" := by
  rintro rfl
  exact operand '-' [] rfl

theorem ofTask_of_isOperand (operand : IsOperand path) (t : Task) :
    ofTask 0 t [path] = .ok ⟨0, t, none, [path]⟩ := by
  have scanned : scan t.options true [path] = .ok ([], [path]) := by
    simp [scan, ne_dashes_of_isOperand operand, optionsIn?_of_isOperand operand]
  rw [ofTask, scanFor, scanned]
  rfl

/-- The name of a task and a path are read as that task on that file. -/
theorem parse_of_isOperand (operand : IsOperand path) (t : Task) :
    parse [t.name, path] = .ok ⟨0, t, none, [path]⟩ := by
  have scanned : scanFor none mainOptions false [t.name, path] = .ok ([], [t.name, path]) := by
    cases t <;> rfl
  have found : Task.ofName? t.name = some t := by cases t <;> rfl
  rw [parse, scanned]
  simp only [List.isEmpty_cons, Bool.false_eq_true, if_false, ok_bind, found]
  exact ofTask_of_isOperand operand t

section

variable [CharNames]

/-- A task on a file that is there is performed on its text. -/
theorem run_of_file {t : Task} (operand : IsOperand path) (file : look path = .file text)
    (reads : t.operands = ["FLOW_FILE"]) :
    run vars look [t.name, path] =
      perform (Settings.ofVariables vars) ⟨0, t, none, [path]⟩ path text := by
  have reading : t ≠ .schema := by
    rintro rfl
    cases reads
  rw [run, parse_of_isOperand operand]
  simp [runInvocation, checkOutput, reading, flowText, file, checkOperands, reads, report]

theorem run_validate (operand : IsOperand path) (file : look path = .file text) :
    run vars look ["validate", path] =
      withFlow 0 text fun err l => validateFlow path err l.flow :=
  run_of_file (t := .validate) operand file rfl

theorem run_generate (operand : IsOperand path) (file : look path = .file text) :
    run vars look ["generate", path] = withFlow 0 text fun err l =>
      generateFlow (Settings.ofVariables vars) 0 none err l.flow :=
  run_of_file (t := .generate) operand file rfl

end

/-! ## Loaded flows -/

/-- A text is loaded when its value counts as a flow, which is then normalized. -/
theorem load_eq_ok {l : Loaded} : load text = .ok l ↔
    ∃ f, Exchange.readValue .standard (String.ofList (Text.feedOnly text.toList)) = .ok l.source ∧
      Flow.check l.source.typed = .ok f ∧ f.normalize = l.flow :=
  Flow.loaded_eq_ok

theorem loadFile_eq_ok : loadFile text = .ok f ↔ ∃ l, load text = .ok l ∧ l.flow = f := by
  simp only [loadFile, bind_eq_ok, pure_eq_ok, Except.ok.injEq]

theorem loadFile_eq_error {e : Failure} : loadFile text = .error e ↔ load text = .error e := by
  rw [loadFile]
  cases load text <;> simp

/-- A loaded flow passes its own check. -/
theorem check_of_loadFile (loaded : loadFile text = .ok f) : Flow.check f.document = .ok f := by
  obtain ⟨l, read, rfl⟩ := loadFile_eq_ok.1 loaded
  obtain ⟨g, -, checked, same⟩ := load_eq_ok.1 read
  rw [← same]
  exact Flow.check_normalize checked

/-- A task goes on with the flow that was loaded. -/
theorem withFlow_of_loadFile (loaded : loadFile text = .ok f) (next : String → Flow → Report) :
    withFlow 0 text (fun err l => next err l.flow) = next "" f := by
  obtain ⟨l, read, rfl⟩ := loadFile_eq_ok.1 loaded
  rw [withFlow, read]
  rfl

/-- A task ends where the flow cannot be loaded. -/
theorem withFlow_of_error {e : Failure} (fails : loadFile text = .error e)
    (next : String → Flow → Report) :
    withFlow 0 text (fun err l => next err l.flow) = .failed "" e := by
  rw [withFlow, loadFile_eq_error.1 fails]

/-- Validation succeeds on whole flows only. -/
theorem exitCode_validateFlow (checked : Flow.check f.document = .ok f) (err : String) :
    (validateFlow path err f).exitCode = 0 ↔ f.Whole := by
  obtain ⟨issues, found, clear⟩ := Check.clearIff_routeIssues (Flow.shownIn_of_check checked).1
  rw [← clear, Check.Clear, validateFlow, found]
  simp only [lift_ok]
  split <;> simp_all

/-- A flow that is not whole is blocked before its module is generated. -/
theorem blocked_of_not_whole (checked : Flow.check f.document = .ok f) (broken : ¬f.Whole) :
    ∃ issues, Check.exportable f.document = .error (.brokenGraph issues) := by
  obtain ⟨issues, found, clear⟩ := Check.clearIff_routeIssues (Flow.shownIn_of_check checked).1
  rw [Check.clear_iff_filter] at clear
  simp only [Check.exportable, Flow.ofDocument_eq_ok.2 checked, found, ok_bind, liftM_eq_lift,
    lift_ok]
  split
  case h_1 none => exact absurd (clear.1 none) broken
  case h_2 => exact ⟨_, rfl⟩

section

variable [CharNames]

section

variable {g : Flow} {settings : Settings} {verbosity : Nat} {output : Option String} {err : String}

theorem generateFlow_of_blocked {e : Failure} (blocked : Check.exportable f.document = .error e) :
    generateFlow settings verbosity output err f = .failed err e := by
  unfold generateFlow
  rewrite [blocked]
  exact rfl

/-- A flow that may be exported is generated, or fails by a value in it. -/
theorem generateFlow_of_exportable (exported : Check.exportable f.document = .ok g) :
    generateFlow settings verbosity output err f =
      match (Script.generate settings g).lift with
      | .error e => .failed err e
      | .ok text => .produced (err ++ logText verbosity (generatedLines g)) text output := by
  unfold generateFlow
  rewrite [exported]
  exact rfl

theorem generateFlow_of_generate {out : String} (exported : Check.exportable f.document = .ok g)
    (written : Script.generate settings g = .ok out) :
    generateFlow settings verbosity output err f =
      .produced (err ++ logText verbosity (generatedLines g)) out output := by
  rewrite [generateFlow_of_exportable exported, written]
  exact rfl

/-- A value that cannot be written is the fault of the report. -/
theorem generateFlow_of_fault {m : Malformed} (exported : Check.exportable f.document = .ok g)
    (unwritten : Script.generate settings g = .error m) :
    generateFlow settings verbosity output err f = .failed err (.malformed m) := by
  rewrite [generateFlow_of_exportable exported, unwritten]
  exact rfl

end

/-- What generating from a flow comes to. -/
theorem generateFlow_cases (settings : Settings) (checked : Flow.check f.document = .ok f)
    (err : String) :
    (¬f.Whole ∧ ∃ issues, generateFlow settings 0 none err f =
        .failed err (.brokenGraph issues)) ∨
      (f.Whole ∧ ∃ m, Script.Obstacle f m ∧
        generateFlow settings 0 none err f = .failed err (.malformed m)) ∨
      f.Whole ∧ f.Expressible ∧
        ∃ err' out, generateFlow settings 0 none err f = .produced err' out none := by
  by_cases whole : f.Whole
  case neg =>
    obtain ⟨issues, blocked⟩ := blocked_of_not_whole checked whole
    exact .inl ⟨whole, issues, generateFlow_of_blocked blocked⟩
  have exported := Check.exportable_eq_ok.2 ⟨checked, whole⟩
  cases made : Script.moduleOf settings f with
  | ok m =>
    have written : Script.generate settings f = .ok m.text := by
      rw [Script.generate, made, ok_bind, pure_eq_ok]
    exact .inr (.inr ⟨whole, Script.expressible_of_moduleOf made, _, _,
      generateFlow_of_generate exported written⟩)
  | error m =>
    have unwritten : Script.generate settings f = .error m := by
      rw [Script.generate, made, error_bind]
    exact .inr (.inl ⟨whole, m, Script.obstacle_of_moduleOf made,
      generateFlow_of_fault exported unwritten⟩)

/-! ## Both tasks -/

section

variable (vars) (operand : IsOperand path) (file : look path = .file text)
include operand file

theorem validate_unloaded {e : Failure} (fails : loadFile text = .error e) :
    run vars look ["validate", path] = .failed "" e := by
  rw [run_validate operand file]
  exact withFlow_of_error fails _

theorem generate_unloaded {e : Failure} (fails : loadFile text = .error e) :
    run vars look ["generate", path] = .failed "" e := by
  rw [run_generate operand file]
  exact withFlow_of_error fails _

theorem validate_loaded (loaded : loadFile text = .ok f) :
    (run vars look ["validate", path]).exitCode = 0 ↔ f.Whole := by
  rw [run_validate operand file, withFlow_of_loadFile loaded (validateFlow path)]
  exact exitCode_validateFlow (check_of_loadFile loaded) ""

/-- What generating from a file comes to, once its flow is loaded. -/
theorem generate_loaded (loaded : loadFile text = .ok f) :
    (¬f.Whole ∧ ∃ issues, run vars look ["generate", path] = .failed "" (.brokenGraph issues)) ∨
      (f.Whole ∧ ∃ m, Script.Obstacle f m ∧
        run vars look ["generate", path] = .failed "" (.malformed m)) ∨
      f.Whole ∧ f.Expressible ∧
        ∃ err out, run vars look ["generate", path] = .produced err out none := by
  rw [run_generate operand file,
    withFlow_of_loadFile loaded (generateFlow (Settings.ofVariables vars) 0 none)]
  exact generateFlow_cases _ (check_of_loadFile loaded) ""

/-- Generation succeeds on whole flows with values that can be written. -/
theorem exitCode_generate (loaded : loadFile text = .ok f) :
    (run vars look ["generate", path]).exitCode = 0 ↔ f.Whole ∧ f.Expressible := by
  obtain ⟨broken, _, blocked⟩ | ⟨whole, m, obstacle, fails⟩ | ⟨whole, expressible, _, _, made⟩ :=
    generate_loaded vars operand file loaded
  · simp [blocked, exitCode_failed, broken]
  · have inexpressible : ¬f.Expressible := fun fits => Script.expressible_iff.1 fits m obstacle
    simp [fails, exitCode_failed, inexpressible]
  · simp [made, exitCode_produced, whole, expressible]

/-- A fault of generation is an obstacle in a flow that validation would pass. -/
theorem fault_generate (loaded : loadFile text = .ok f) {m : Malformed}
    (fault : (run vars look ["generate", path]).fault = some m) :
    f.Whole ∧ Script.Obstacle f m := by
  obtain ⟨-, _, blocked⟩ | ⟨whole, e, obstacle, fails⟩ | ⟨-, -, _, _, made⟩ :=
    generate_loaded vars operand file loaded
  · simp [blocked, Report.failed] at fault
  · obtain rfl : e = m := by simpa [fails, Report.failed] using fault
    exact ⟨whole, obstacle⟩
  · simp [made, fault_produced] at fault

/-- As long as no number is too long, a fault is the value of a condition. -/
theorem fault_generate_of_isShort (loaded : loadFile text = .ok f)
    (short : ∀ g ∈ Script.functionsOf f, Script.IsShort g) (m : Malformed) :
    (run vars look ["generate", path]).fault = some m ↔
      m = .tooLarge ∧ f.Whole ∧ ¬f.Expressible := by
  have value {e : Malformed} (obstacle : Script.Obstacle f e) : e = .tooLarge := by
    cases obstacle with
    | value => rfl
    | number described long => exact absurd (short _ described) long
  obtain ⟨broken, _, blocked⟩ | ⟨whole, e, obstacle, fails⟩ | ⟨whole, expressible, _, _, made⟩ :=
    generate_loaded vars operand file loaded
  · simp [blocked, Report.failed, broken]
  · have inexpressible : ¬f.Expressible := fun fits => Script.expressible_iff.1 fits e obstacle
    obtain rfl := value obstacle
    simp [fails, Report.failed, whole, inexpressible, eq_comm]
  · simp [made, fault_produced, expressible]

end

/-- How validating a file compares with generating from it. -/
structure TasksAgree (vars : Settings.Variables) (look : String → Entry) (path text : String) :
    Prop where
  /-- A file that holds no flow is told of in the same way. -/
  unloaded (e : Failure) (fails : loadFile text = .error e) :
    run vars look ["validate", path] = .failed "" e ∧
      run vars look ["generate", path] = .failed "" e
  validates : (run vars look ["validate", path]).exitCode = 0 ↔
    ∃ f, loadFile text = .ok f ∧ f.Whole
  generates : (run vars look ["generate", path]).exitCode = 0 ↔
    ∃ f, loadFile text = .ok f ∧ f.Whole ∧ f.Expressible
  agrees : ((run vars look ["validate", path]).exitCode = 0 ↔
      (run vars look ["generate", path]).exitCode = 0) ↔
    ∀ f, loadFile text = .ok f → f.Whole → f.Expressible
  blocked (f : Flow) (loaded : loadFile text = .ok f) (broken : ¬f.Whole) :
    ∃ issues, run vars look ["generate", path] = .failed "" (.brokenGraph issues)
  /-- Once a flow is loaded, nothing but what keeps it from becoming a module is a fault. -/
  faults (f : Flow) (loaded : loadFile text = .ok f) (m : Malformed)
    (fault : (run vars look ["generate", path]).fault = some m) : f.Whole ∧ Script.Obstacle f m
  /-- That is the value of a condition, as long as no number is too long. -/
  values (f : Flow) (loaded : loadFile text = .ok f)
    (short : ∀ g ∈ Script.functionsOf f, Script.IsShort g) (m : Malformed) :
    (run vars look ["generate", path]).fault = some m ↔
      m = .tooLarge ∧ f.Whole ∧ ¬f.Expressible

end

theorem isOperand_flowJson : IsOperand "flow.json" := by
  simp [IsOperand]

def hugeChars : List Char :=
  "\x7b\"meta\": \x7b\"name\": \"Sample\"\x7d, \"nodes\": [\x7b\"id\": \"greet\", ".toList ++
  "\"position\": \x7b\"x\": 0, \"y\": 0\x7d, \"data\": \x7b\"functions\": [\x7b".toList ++
  "\"name\": \"choose\", \"description\": \"\", \"decision\": \x7b".toList ++
  "\"action\": \"result = 1\", \"conditions\": [\x7b\"operator\": \"==\", ".toList ++
  "\"value\": \"".toList ++ Script.hugeSum ++ "\", \"next_node_id\": \"greet\"\x7d], ".toList ++
  "\"default_next_node_id\": \"greet\"\x7d\x7d]\x7d\x7d]\x7d".toList

/-- A flow that compares with a sum that is out of range. -/
def hugeText : String := String.ofList hugeChars

/-- The values that the conditions of a flow compare with. -/
def comparedValues (f : Flow) : List String :=
  f.nodes.flatMap fun n => n.data.functionList.flatMap fun g =>
    g.decision.toList.flatMap fun d => d.conditions.map (·.value)

/-- A value to compare with that is too large keeps a flow from being written. -/
theorem not_expressible_of_mem [CharNames] {v : String} (member : v ∈ comparedValues f)
    (huge : Literal.read (Text.strip v.toList) = .error .tooLarge) : ¬f.Expressible := by
  intro expressible
  simp only [comparedValues, List.mem_flatMap, Option.mem_toList, List.mem_map] at member
  obtain ⟨n, owner, g, called, d, decided, c, tested, rfl⟩ := member
  exact expressible.values n owner g called d decided c tested huge

/-- The flow is loaded and its graph is whole, but no module can be generated from it. -/
theorem loadFile_hugeText : ∃ f, loadFile hugeText = .ok f ∧ f.Whole ∧ ¬f.Expressible ∧
    ∀ g ∈ Script.functionsOf f, Script.IsShort g := by
  have fed : Text.feedOnly hugeText.toList = hugeChars := by
    rw [hugeText, String.toList_ofList]
    decide +kernel
  have run : (Json.readChars hugeChars).toOption.any fun d => (Flow.check d).toOption.any fun f =>
      (Check.exportable f.normalize.document).isOk &&
        comparedValues f.normalize == [String.ofList Script.hugeSum] &&
        ((Script.functionsOf f.normalize).forM Script.checkNumbers).isOk := by decide +kernel
  obtain ⟨d, json, run⟩ := exists_of_any run
  obtain ⟨f, checked, run⟩ := exists_of_any run
  obtain ⟨run, numbers⟩ := Bool.and_eq_true_iff.1 run
  obtain ⟨exported, values⟩ := Bool.and_eq_true_iff.1 run
  have loaded : loadFile hugeText = .ok f.normalize := by
    have read : Json.read (String.ofList (Text.feedOnly hugeText.toList)) = .ok d := by
      rw [fed, Json.read, String.toList_ofList, json]
    have counted := Yaml.Value.typed_ofDocument (Json.exact_read read).distinct
    refine loadFile_eq_ok.2 ⟨⟨f.normalize, .ofDocument d⟩, load_eq_ok.2 ?_, rfl⟩
    exact ⟨f, Exchange.readValue_of_json read, by rw [counted, checked], rfl⟩
  refine ⟨f.normalize, loaded, ?_, ?_, fun g described => ?_⟩
  · obtain ⟨g, exported⟩ := exists_of_isOk exported
    obtain ⟨again, whole⟩ := Check.exportable_eq_ok.1 exported
    cases (Flow.check_normalize checked).symm.trans again
    exact whole
  · refine not_expressible_of_mem (v := String.ofList Script.hugeSum) ?_ ?_
    · rw [eq_of_beq values]
      exact .head _
    · rw [String.toList_ofList]
      exact Script.read_hugeSum
  · obtain ⟨_, short⟩ := exists_of_isOk numbers
    exact Script.checkNumbers_eq_ok.1 (forM_eq_ok.1 short g described)

def hugeLook : String → Entry := fun _ => .file hugeText

end Dialogue.Command
