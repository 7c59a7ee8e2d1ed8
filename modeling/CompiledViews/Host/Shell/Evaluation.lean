import CompiledViews.Host.Shell.Program

/-!
# Evaluating scripts

Scripts change the state of a shell. A limit bounds how deep they are nested, where a process runs
out of room, and a number of steps how long they go on: a script that takes more of them counts as
one that never ends.
-/

namespace CompiledViews.Shell

/-- Ends a strict shell after a command that has failed, unless its failure is tested. -/
def check (manner : Manner) : Action Unit := do
  let state ← get
  if state.status != 0 && !manner.tested && state.has 'e' then throw .exited

/-- Takes one of the steps that are left. Where there are none the shell has been busy for long. -/
def takeStep (run : Runner) : Action Unit := do
  let state ← get
  if state.steps = 0 then stayBusy run
  else set { state with steps := state.steps - 1 }

/-- Notes the line of a command. -/
def atLine (line : Nat) : Action Unit := modify ({ · with line })

/-! ## Functions and variables -/

/-- How deep calls of functions may be nested. -/
def callLimit : Nat := 1000

/-- Runs the body of a function with arguments. Its local variables end with it. -/
def callFunction (run : Runner) (manner : Manner) (function : Function) (arguments : List Text) :
    Action Unit := do
  let before ← get
  if callLimit ≤ before.calls then
    fail ("Maximum function recursion depth (" ++ Text.ofNat callLimit ++ ") reached")
  set { before with
    arguments
    scopes := [] :: before.scopes
    loops := 0
    calls := before.calls + 1
    optionOffset := 0 }
  let body : Action Unit := do
    try run { manner with last := false } function.body
    catch stop => if stop = .returning then pure () else throw stop
  try body
  finally
    let after ← get
    let hidden := after.scopes.head?.getD []
    let restored := hidden.foldl (fun (state : State) (name, binding) =>
      state.setBinding name binding) after
    set { restored with
      arguments := before.arguments
      scopes := before.scopes
      loops := before.loops
      calls := before.calls
      optionOffset := before.optionOffset }
    match hidden.find? fun entry => !isName entry.1 with
    | some (name, _) => fail (name ++ ": bad variable name")
    | none => pure ()

/-- Gives values to variables, made known to programs if wanted, and tells the assignments. -/
def assignAll (substituted : Script → Action Bytes) (exported : Bool) :
    List (Text × Word) → Action (List (Text × Text))
  | [] => pure []
  | (name, word) :: others => do
    let value ← expandValue substituted word
    assign name value
    if exported then
      modify fun state =>
        state.setBinding name ((state.binding? name).map ({ · with exported := true }))
    return (name, value) :: (← assignAll substituted exported others)

/-- Does something with variables that are as before afterwards. -/
def withVariables {α : Type} (names : List Text) (body : Action α) : Action α := do
  let before ← get
  try body
  finally
    modify fun after =>
      names.foldl (fun (state : State) name => state.setBinding name (before.binding? name)) after

/-- Writes out a command before it is run, if that is wanted. -/
def trace (assigned : List (Text × Text)) (words : List Text) : Action Unit := do
  let state ← get
  if state.has 'x' then
    let parts := assigned.map (fun (name, value) => name ++ "=" ++ value) ++ words
    tell ((state.value? "PS4").getD [] ++ Text.join " " parts ++ "\n")

/-! ## Commands -/

/-- A command with its arguments expanded, and how it is run: in which manner, whether functions may
be meant, and whether an error of a special command ends the shell. -/
structure Call where
  manner : Manner
  name : Text
  arguments : List Text
  functions : Bool
  strict : Bool

/-- Does what a command of the shell does while complaints name that. An error ends the shell only
if the command is `fatal`. -/
def within (name : Text) (fatal : Bool) (body : Action Nat) : Action Unit := do
  let before := (← get).command
  let whole : Action Unit := do
    try
      modify ({ · with command := some name })
      setStatus (← body)
    catch stop =>
      if stop = .failed ∧ !fatal then pure () else throw stop
  try whole
  finally modify ({ · with command := before })

/-- Complains that there is no program with a name. -/
def complainOfCommand (name : Text) (error : OsError) : Action Unit :=
  complain (name ++ ": " ++ openReason "not found" (if name = [] then .permissionDenied else error))

/-- Runs a program in a process of its own, or instead of the shell if nothing follows. -/
def runProgram (run : Runner) (manner : Manner) (name : Text) (arguments : List Text) :
    Action Unit := do
  let state ← get
  let isSought := !name.contains '/'
  let missing (error : OsError) : Action Unit := do
    complainOfCommand name error
    setStatus (if isSought then 127 else missingStatus error)
  match state.resolve name, isSought with
  | .error error, true => missing error
  | _, _ =>
    let launch : Launch := ⟨name, arguments, missing⟩
    if isSought then modify (·.hash name)
    if manner.last && state.traps.all (·.2 == []) then execute run launch
    else report (← fork run id (execute run launch))

/-- Evaluates a script as the command for that does. -/
def runWords (run : Runner) (manner : Manner) (arguments : List Text) : Action Nat := do
  runText run manner.tested (Text.join " " arguments)
  return (← get).status

/-- The path of a script that is to be read in place, which may be found on the search path. -/
def sourcePath (name : Text) : Action Text := do
  let state ← get
  if name.contains '/' then pure name
  else
    let paths := Builtin.searchPaths ((state.value? "PATH").getD []) name
    match paths.find? fun path => (state.files.readBytes path).toOption.isSome with
    | some path => pure path
    | none => fail (name ++ ": not found")

/-- Evaluates the script in a file. -/
def runFile (run : Runner) (arguments : List Text) : Action Nat := do
  match arguments with
  | [] => pure 0
  | name :: _ =>
    let path ← sourcePath name
    let state ← get
    match state.scriptAt path with
    | .error error => fail (openComplaint false path error)
    | .ok script =>
      modify ({ · with command := some path })
      try runText run false script
      catch stop => if stop = .returning then pure () else throw stop
      return (← get).status

/-- Tells which programs are known already, or looks for others. -/
def hash : Builtin := fun arguments => do
  let (given, names) ← Builtin.letters "r" arguments
  if given != [] then modify ({ · with hashed := [] })
  let state ← get
  if given = [] ∧ names = [] then
    let paths := state.hashed.filterMap fun name => (state.resolve name).toOption.map (·.1)
    printText "hash" (Text.unlines paths)
  else
    let mut status := 0
    for name in names do
      match (← get).resolve name, Builtin.ordinary.contains name || Builtin.isSpecial name with
      | _, true => pure ()
      | .ok _, _ => modify (·.hash name)
      | .error error, _ =>
        complainOfCommand name error
        status := 1
    pure status

/-- Lets a program take the place of the shell. -/
def replaceShell (run : Runner) (arguments : List Text) : Action Nat := do
  match arguments with
  | [] => pure 0
  | name :: others =>
    runBirths run backgroundDepth true
    let missing (error : OsError) : Action Unit := do
      complainOfCommand name error
      setStatus (if name = [] then 126 else missingStatus error)
    modify fun state => { state with traps := state.keptTraps }
    execute run ⟨name, others, missing⟩
    throw .exited

/-- Runs a command that asks what another one is, or runs it without functions. The limit bounds how
often it runs itself. -/
def runCommand (run : Runner) : (limit : Nat) → Call → Action Unit
  | 0, _ => throw .overdue
  | limit + 1, call => do
    let state ← get
    let name := call.name
    let fatal := call.strict && Builtin.isSpecial name
    match if call.functions then state.functions.find? (·.name == name) else none with
    | some function => callFunction run call.manner function call.arguments
    | none =>
      match Text.toString name with
      | "eval" => within name fatal (runWords run call.manner call.arguments)
      | "." => within name fatal (runFile run call.arguments)
      | "exec" => within name fatal (replaceShell run call.arguments)
      | "wait" => within name fatal (wait run call.arguments)
      | "hash" => within name fatal (hash call.arguments)
      | "command" =>
        let (given, others) ← askOptions call.arguments
        match others with
        | [] => setStatus 0
        | word :: rest =>
          if given.contains 'v' ∨ given.contains 'V' then
            within name false (Builtin.locate (given.contains 'V') word)
          else
            runCommand run limit
              { call with name := word, arguments := rest, functions := false, strict := false }
      | _ =>
        match Builtin.table.lookup name with
        | some builtin => within name fatal (builtin call.arguments)
        | none => runProgram run call.manner name call.arguments
where
  /-- The options of the command that asks what another one is. -/
  askOptions (arguments : List Text) : Action (Text × List Text) := do
    let before := (← get).command
    modify ({ · with command := some "command" })
    let found ← Builtin.letters "pvV" arguments
    modify ({ · with command := before })
    pure found

/-- How often a command may run itself. -/
def commandLimit : Nat := 20

/-- The names of commands whose arguments may be assignments, which are not split. -/
def declarations : List Text := ["export", "readonly", "local"]

/-- The words of a simple command with the text of an abbreviation in the place of the first one. -/
def State.unabbreviated (state : State) (words : List Word) : List Word :=
  match words with
  | first :: others =>
    match first.bare?.bind fun name => state.active.lookup name with
    | some text =>
      match Script.readAll text 1 with
      | ([.simple _ [] replaced []], none) => replaced ++ others
      | _ => words
    | none => words
  | [] => []

/-- Runs a simple command that has only assignments and redirections. -/
def runAssignments (run : Runner) (assignments : List (Text × Word))
    (redirections : List Redirection) : Action Unit := do
  withRedirections (substitute run) redirections
    (do
      let assigned ← assignAll (substitute run) false assignments
      trace assigned []
      setStatus ((← get).substituted.getD 0))
    (setStatus 2)

def runSimple (run : Runner) (manner : Manner) (assignments : List (Text × Word))
    (words : List Word) (redirections : List Redirection) : Action Unit := do
  modify ({ · with substituted := none })
  let state ← get
  let words := state.unabbreviated words
  let isDeclaration := (words.head?.bind Word.bare?).any declarations.contains
  let expanded ←
    if isDeclaration then
      words.flatMapM (expandDeclaration (substitute run))
    else expandWords (substitute run) words
  match expanded with
  | [] => runAssignments run assignments redirections
  | name :: arguments =>
    let call : Call := ⟨manner, name, arguments, true, true⟩
    let isFunction := (← get).functions.any (·.name == name)
    let isSpecial := !isFunction && Builtin.isSpecial name
    let isOwn := isFunction || Builtin.ordinary.contains name
    let names := assignments.map (·.1)
    let refuse : Action Unit := do
      setStatus 2
      if isSpecial then throw .failed
    let body : Action Unit := do
      let assigned ← assignAll (substitute run) (!isOwn && !isSpecial || isFunction) assignments
      trace assigned expanded
      runCommand run commandLimit call
    let limited := if isSpecial then body else withVariables names body
    if isSpecial ∧ name = "exec" then
      if ← redirectAll (substitute run) redirections then limited else refuse
    else withRedirections (substitute run) redirections limited refuse

/-! ## Loops and choices -/

/-- A round of a loop: does something, and tells whether the loop goes on. -/
def round (body : Action Unit) : Action Bool := do
  try
    body
    pure true
  catch stop =>
    match stop with
    | .leaving (loops + 2) => throw (.leaving (loops + 1))
    | .leaving _ => pure false
    | .skipping (loops + 2) => throw (.skipping (loops + 1))
    | .skipping _ => pure true
    | other => throw other

/-- Does something inside of one more loop. -/
def inLoop (body : Action Unit) : Action Unit := do
  let before := (← get).loops
  modify ({ · with loops := before + 1 })
  try body
  finally modify ({ · with loops := before })

/-- Rounds of a loop that go on while its condition succeeds as wanted. The last status of the body
is that of the loop. -/
def runRounds (run : Runner) (manner : Manner) (wanted : Bool) (condition body : Script) :
    (limit : Nat) → (status : Nat) → Action Unit
  | 0, _ => throw .overdue
  | limit + 1, status => do
    takeStep run
    let tested ← round (run ⟨true, false⟩ condition)
    if !tested then setStatus 0
    else if ((← get).status == 0) != wanted then setStatus status
    else
      let goesOn ← round (run { manner with last := false } body)
      if goesOn then runRounds run manner wanted condition body limit (← get).status

/-- Rounds of a loop over values. -/
def runEach (run : Runner) (manner : Manner) (name : Text) (body : Script) :
    List Text → Action Unit
  | [] => pure ()
  | value :: values => do
    takeStep run
    assign name value
    let goesOn ← round (run { manner with last := false } body)
    if goesOn then runEach run manner name body values

/-- Whether one of several patterns matches a text. -/
def matchesAny (run : Runner) (text : Text) : List Word → Action Bool
  | [] => pure false
  | word :: others => do
    let pattern ← expandWhole (substitute run) word
    if (Pattern.read pattern).accepts text then pure true else matchesAny run text others

/-- Evaluates the first clause of which a pattern matches a text. -/
def runChoice (run : Runner) (manner : Manner) (text : Text) :
    List (List Word × Script) → Action Unit
  | [] => setStatus 0
  | (patterns, body) :: others => do
    if ← matchesAny run text patterns then run manner body
    else runChoice run manner text others

/-! ## Scripts -/

/-- How many rounds a loop may have. -/
def roundLimit : Nat := 2000000

/-- Evaluates a script, given how the scripts in it are evaluated. -/
def evaluateWith (run : Runner) (manner : Manner) (script : Script) :
    Action Unit := do
  let tested : Manner := ⟨true, false⟩
  let inside : Manner := { manner with last := false }
  match script with
  | .nothing => setStatus 0
  | .simple line assignments words redirections =>
    takeStep run
    atLine line
    runSimple run manner assignments words redirections
    settle run
    check manner
  | .next first second =>
    run inside first
    run manner second
  | .both first second =>
    run tested first
    if (← get).status = 0 then run manner second
  | .either first second =>
    run tested first
    if (← get).status != 0 then run manner second
  | .negated body =>
    run tested body
    setStatus (if (← get).status = 0 then 1 else 0)
  | .pipe stages =>
    runPipe run manner stages
    settle run
    check manner
  | .subshell line body redirections =>
    atLine line
    let redirections ← redirections.mapM (expandTarget (substitute run))
    let whole : Action Unit :=
      withRedirections (substitute run) redirections (run { manner with last := true } body)
        (setStatus 2)
    if manner.last && (← get).traps.all (·.2 == []) then whole
    else
      report (← fork run id whole)
      settle run
      check manner
  | .background body => beginBackground body
  | .redirected line body redirections =>
    atLine line
    withRedirections (substitute run) redirections (run inside body) (setStatus 2)
  | .branch condition body otherwise =>
    run tested condition
    run manner (if (← get).status = 0 then body else otherwise)
  | .choice line subject clauses =>
    atLine line
    let text ← expandWhole (substitute run) subject
    runChoice run manner text.plain clauses
  | .loop wanted condition body =>
    inLoop (runRounds run manner wanted condition body roundLimit 0)
  | .each line name words body =>
    atLine line
    let values ← expandWords (substitute run) words
    if values.isEmpty then setStatus 0
    inLoop (runEach run manner name body values)
  | .define name body =>
    modify fun state =>
      { state with
        functions := ⟨name, body⟩ :: state.functions.filter (·.name != name)
        status := 0 }

/-- How deep scripts may be nested. -/
def nestingLimit : Nat := 20000

/-- Evaluates a script that is nested at most so deep, or else takes too much room. -/
def evaluate : (limit : Nat) → Runner
  | 0, _, _ => throw (.killed .badAccess)
  | limit + 1, manner, script => do
    if !(← get).has 'n' then evaluateWith (evaluate limit) manner script

end CompiledViews.Shell
