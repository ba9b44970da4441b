import Dialogue.Command.Usage

/-!
# Invocations

From arguments to what is asked for. Options may stand before and after operands, short ones may be
run together, and a value may be joined to its option; a double hyphen ends the options.
-/

namespace Dialogue.Command

/-- An option that was given, with its value if it takes one. -/
structure Given where
  option : OptionSpec
  value : Option String := none

def shortText (c : Char) : String := String.ofList ['-', c]

/-- Short options run together. The last one may still want a value. -/
def shorts (specs : List OptionSpec) :
    List Char → Except UsageFault (List Given × Option (OptionSpec × String))
  | [] => .ok ([], none)
  | c :: cs =>
    match specs.find? fun o => o.short = some c with
    | none => .error (.noSuchOption (shortText c) [])
    | some o =>
      if o.takesValue then
        if cs.isEmpty then .ok ([], some (o, shortText c))
        else .ok ([⟨o, some (String.ofList cs)⟩], none)
      else do
        let (given, wanting) ← shorts specs cs
        .ok (⟨o, none⟩ :: given, wanting)

/-- A name, and the value joined to it if there is one. -/
def cutValue (cs : List Char) : String × Option String :=
  (String.ofList (cs.takeWhile (· != '=')),
    match cs.dropWhile (· != '=') with
    | [] => none
    | _ :: value => some (String.ofList value))

def long (specs : List OptionSpec) (cs : List Char) :
    Except UsageFault (List Given × Option (OptionSpec × String)) :=
  let (name, value) := cutValue cs
  match specs.find? fun o => o.long = name with
  | none => .error (.noSuchOption name (suggestions name (specs.map (·.long))))
  | some o =>
    match o.takesValue, value with
    | true, some v => .ok ([⟨o, some v⟩], none)
    | true, none => .ok ([], some (o, name))
    | false, some _ => .error (.valueUnwanted name)
    | false, none => .ok ([⟨o, none⟩], none)

/-- The options in an argument; none if it is an operand. -/
def optionsIn? (specs : List OptionSpec) (arg : String) :
    Option (Except UsageFault (List Given × Option (OptionSpec × String))) :=
  match arg.toList with
  | '-' :: '-' :: cs => some (long specs ('-' :: '-' :: cs))
  | '-' :: c :: cs => some (shorts specs (c :: cs))
  | _ => none

/-- The options given, and the operands. Unless `mixed`, the first operand ends the options. -/
def scan (specs : List OptionSpec) (mixed : Bool) :
    List String → Except UsageFault (List Given × List String)
  | [] => .ok ([], [])
  | arg :: args =>
    if arg = "--" then .ok ([], args)
    else
      match optionsIn? specs arg with
      | none =>
        if mixed then do
          let (given, operands) ← scan specs mixed args
          .ok (given, arg :: operands)
        else .ok ([], arg :: args)
      | some found => do
        match ← found with
        | (given, none) => do
          let (more, operands) ← scan specs mixed args
          .ok (given ++ more, operands)
        | (given, some (o, name)) =>
          match args with
          | [] => .error (.valueMissing name)
          | value :: args => do
            let (more, operands) ← scan specs mixed args
            .ok (given ++ ⟨o, some value⟩ :: more, operands)

/-- What is asked for. -/
structure Invocation where
  verbosity : Nat
  task : Task
  output : Option String
  operands : List String

/-- Why nothing is done: a page of help is wanted, or the usage is wrong. -/
inductive Stop where
  | help (task : Option Task)
  | noArguments
  | wrong (task : Option Task) (fault : UsageFault)

def wantsHelp (given : List Given) : Bool := given.any fun g => g.option = helpOption

def outputOf (given : List Given) : Option String :=
  (given.reverse.find? fun g => g.option = outputOption).bind (·.value)

def verbosityOf (given : List Given) : Nat :=
  (given.filter fun g => g.option = verboseOption).length

def scanFor (task : Option Task) (specs : List OptionSpec) (mixed : Bool) (args : List String) :
    Except Stop (List Given × List String) := do
  let (given, operands) ← (scan specs mixed args).mapError (.wrong task)
  if wantsHelp given then .error (.help task) else .ok (given, operands)

def ofTask (verbosity : Nat) (task : Task) (args : List String) : Except Stop Invocation := do
  let (given, operands) ← scanFor (some task) task.options true args
  .ok ⟨verbosity, task, outputOf given, operands⟩

/-- A first operand that is no task; it may also be an option that came too late. -/
def unknownTask (args : List String) (name : String) : Except Stop Invocation := do
  let _ ← scanFor none mainOptions false args
  .error (.wrong none (.noSuchTask name))

def parse (args : List String) : Except Stop Invocation := do
  if args.isEmpty then .error .noArguments
  else
    let (given, operands) ← scanFor none mainOptions false args
    match operands with
    | [] => .error (.wrong none .noTask)
    | name :: rest =>
      match Task.ofName? name with
      | some task => ofTask (verbosityOf given) task rest
      | none => unknownTask operands name

/-! ## Paths -/

/-- What there is under a path. -/
inductive Entry where
  | missing
  | directory
  | file (text : String)

/-- The paths that an invocation reads or writes. -/
def Invocation.paths (i : Invocation) : List String := i.output.toList ++ i.operands.take 1

def Invocation.wrong (i : Invocation) (fault : UsageFault) : Except Stop α :=
  .error (.wrong (some i.task) fault)

def outputPlace : String := "'-o' / '--output'"

def checkOutput (i : Invocation) (look : String → Entry) : Except Stop Unit :=
  match i.output with
  | none => .ok ()
  | some path =>
    match look path with
    | .directory => i.wrong (.badPath outputPlace path .directory)
    | _ => .ok ()

/-- The text of the flow file, which is the first operand. -/
def flowText (i : Invocation) (look : String → Entry) : Except Stop (String × String) :=
  match i.operands with
  | [] => i.wrong (.operandMissing "FLOW_FILE")
  | path :: _ =>
    match look path with
    | .missing => i.wrong (.badPath "'FLOW_FILE'" path .missing)
    | .directory => i.wrong (.badPath "'FLOW_FILE'" path .directory)
    | .file text => .ok (path, text)

/-- The operands are as many as the task needs. -/
def checkOperands (i : Invocation) : Except Stop Unit :=
  match i.task.operands.drop i.operands.length with
  | name :: _ => i.wrong (.operandMissing name)
  | [] =>
    match i.operands.drop i.task.operands.length with
    | [] => .ok ()
    | extra => i.wrong (.operandsUnwanted extra)

end Dialogue.Command
