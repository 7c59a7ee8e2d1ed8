import CompiledViews.Host.Shell.Process
import CompiledViews.Host.Utility.Catalogue

/-!
# Programs

A process becomes a program: another shell, a utility, the interpreter that a file names in its
first line, or a program that runs yet another one.
-/

namespace CompiledViews.Shell

def shellNames : List Text := ["sh", "dash", "bash"]

/-- The programs that run others. -/
def runnerNames : List Text := ["env", "timeout", "nohup", "nice", "setsid", "stdbuf", "xargs"]

/-- The directory of the programs that every host has. -/
def programDirectory : List Text := ["usr", "bin"]

/-- The names of the programs that every host has. -/
def programNames : List Text :=
  shellNames ++ runnerNames ++ Utility.catalogue.map (·.1)

/-- The search path where none is given. -/
def defaultPath : Text := "/usr/local/sbin:/usr/local/bin:/usr/sbin:/usr/bin:/sbin:/bin"

/-- The path and the place of the program that a name stands for. -/
def State.resolve (state : State) (name : Text) : Except OsError (Text × List Text) := do
  let at? (path : Text) : Except OsError (Text × List Text) := do
    let place ← state.files.locate path
    if state.programs.contains place && (state.files.root.at? place).isSome then
      pure (path, place)
    else throw .permissionDenied
  if name.contains '/' then at? name
  else
    let found := (Builtin.searchPaths ((state.value? "PATH").getD []) name).map at?
    match found.findSome? Except.toOption with
    | some program => pure program
    | none =>
      let isTold (error : OsError) : Bool := error != .notFound && error != .notDirectory
      let errors := found.filterMap fun result =>
        match result with
        | .error error => if isTold error then some error else none
        | .ok _ => none
      throw (if name = [] then .notFound else errors.getLast?.getD .notFound)

/-! ## Utilities -/

/-- Complains of what a utility could not print, and fails. -/
def complainOfOutput (name : Text) (error : StreamError) : Action Unit := do
  let what : Text :=
    if name = "cat" ∧ error = .closed then "standard output" else "write error"
  tell (name ++ ": " ++ what ++ ": " ++ error.description ++ "\n")
  setStatus (if name = "ls" ∨ name = "sort" ∨ name = "grep" then 2 else 1)

/-- Prints what a utility prints. Its input goes through it as it comes. -/
def printAll (name : Text) : List UtilityOutput → Action Unit
  | [] => pure ()
  | printed :: others => do
    let error ← match printed with
      | .bytes .output bytes => write 1 bytes
      | .bytes .diagnostics bytes => do
        let _ ← write 2 bytes
        pure none
      | .input => do
        let supply := ((← get).supply? 0).getD ([], 0)
        let mut failed : Option StreamError := none
        for (time, bytes) in supply.1 do
          if failed.isNone then
            modify fun state => { state with time := max state.time time }
            failed ← write 1 bytes
        if failed.isNone then
          modify (·.consume 0 (suppliedBytes supply.1).length true)
        pure failed
    match error with
    | none => printAll name others
    | some error => complainOfOutput name error

/-- Runs a utility that has been called by a name. -/
def runUtility (run : Runner) (base name : Text) (arguments : List Text) : Action Unit := do
  let state ← get
  let supply := state.supply? 0
  let isDirectory := (state.fileAt? 0).any state.files.isDirectory
  let call : UtilityCall :=
    { name, arguments
      input :=
        match supply with
        | none => .error StreamError.closed.description
        | some (pieces, _) =>
          if isDirectory then .error OsError.isDirectory.description
          else .ok (suppliedBytes pieces)
      inputSize := (state.fileAt? 0).map fun path =>
        ((state.files.readBytes path).toOption.getD []).length
      outputPlace := (state.fileAt? 1).bind fun path => (state.files.locate path).toOption
      files := state.files
      programs := state.programs
      environment := state.environment
      time := state.time }
  match Utility.run? base call with
  | none => setStatus 127
  | some ran =>
    let passes := ran.printed.contains .input
    let ready := match ran.uses with
      | .nothing => state
      | .first count => state.consume 0 count false
      | .blocks count => state.consume 0 (state.wholeBlocks 0 count) false
      | .everything =>
        if passes then state else state.consume 0 call.inputBytes.length true
    let marked := ran.marks.foldl (fun programs (place, isProgram) =>
      if isProgram then place :: programs else programs.filter (· != place)) ready.programs
    set { ready with
      time := ready.time + ran.time
      files := { ran.files with current := state.files.current }
      programs := marked
      status := ran.status }
    if base = "cat" ∧ (state.stream? 1).isNone then complainOfOutput name .closed
    else printAll name ran.printed
    let isEndless := ran.uses == .everything &&
      (state.stream? 0 == some .zero || state.stream? 0 == some .full)
    if ran.endless || isEndless then stayBusy run

/-! ## Shells -/

/-- The variables that a shell begins with, besides those that it gets. -/
def firstBindings (state : State) : List Binding :=
  let own (name value : Text) : Binding := ⟨name, some value, false, false⟩
  [own "IFS" " \t\n", own "OPTIND" "1", own "PATH" defaultPath,
    own "PPID" (Text.ofNat state.parent), own "PS1" "# ", own "PS2" "> ", own "PS4" "+ ",
    ⟨"PWD", some state.directory, true, false⟩]

/-- The state in which a shell with a name begins. It keeps what is made known to programs. -/
def State.newShell (state : State) (name : Text) : State :=
  let given := (state.bindings.filter fun binding => binding.exported && binding.value.isSome).map
    fun binding => { binding with readOnly := false }
  let isReplaced (binding : Binding) : Bool :=
    given.any (·.name == binding.name) && (binding.name == "PATH" || binding.name == "PWD")
  let own := (firstBindings state).filter (!isReplaced ·)
  { state with
    shellNumber := state.number
    name
    arguments := []
    bindings := own ++ given.filter fun binding => !own.any (·.name == binding.name)
    scopes := []
    functions := []
    hashed := []
    aliases := []
    active := []
    traps := state.keptTraps
    caught := []
    options := []
    jobs := []
    lastJob := none
    status := 0
    loops := 0
    calls := 0
    line := 0
    command := none
    optionOffset := 0
    trapStatus := none
    substituted := none }

/-- How a shell is to run: whether its script is an argument, or its input, and the arguments after
the options. -/
structure ShellCall where
  fromArgument : Bool
  fromInput : Bool
  operands : List Text

/-- Sets the options of a shell from its arguments. -/
def shellOptions : (limit : Nat) → ShellCall → Action ShellCall
  | 0, call => pure call
  | limit + 1, call =>
    match call.operands with
    | ['-', '-'] :: others | ['-'] :: others => pure { call with operands := others }
    | (sign :: letter :: letters) :: others =>
      if sign = '-' ∨ sign = '+' then do
        let own := (letter :: letters).filter fun c => c == 'c' || c == 's'
        let left ← Builtin.setLetters (sign == '-')
          ((letter :: letters).filter fun c => c != 'c' && c != 's') others
        shellOptions limit
          ⟨call.fromArgument || own.contains 'c', call.fromInput || own.contains 's', left⟩
      else pure call
    | _ => pure call

def becomeShell (run : Runner) (name : Text) (arguments : List Text) : Action Unit := do
  modify (·.newShell name)
  let call ← shellOptions (arguments.length + 1) ⟨false, false, arguments⟩
  if call.fromArgument then
    match call.operands with
    | [] => fail "-c requires an argument"
    | script :: others =>
      modify fun state =>
        { state with name := others.head?.getD name, arguments := others.tail, line := 1 }
      runText run false script
  else
    match call.fromInput, call.operands with
    | false, path :: others =>
      let state ← get
      match state.scriptAt path with
      | .ok script =>
        set { state with name := path, arguments := others, line := 1 }
        runText run false script
      | .error error => fail (openComplaint false path error)
    | _, operands =>
      let state ← get
      let bytes := suppliedBytes ((state.supply? 0).getD ([], 0)).1
      set { state.consume 0 bytes.length true with arguments := operands, line := 1 }
      runText run false (Bytes.loose bytes)

/-! ## Programs that run others -/

/-- A program that is to be run, and what happens if there is none. -/
structure Launch where
  name : Text
  arguments : List Text
  missing : OsError → Action Unit

/-- Runs a program in a process of its own, from a state that is prepared for it. -/
def spawn (run : Runner) (prepare : State → State) (become : Launch → Action Unit)
    (launch : Launch) : Action Ending :=
  fork run prepare do
    become launch
    settle run

/-- The status of a program that there is none of, or that is no program. -/
def missingStatus (error : OsError) : Nat :=
  match error with
  | .notFound | .notDirectory | .nameTooLong | .tooManyLinks => 127
  | _ => 126

/-- Complains in the name of a program that there is no other one to be run, and fails. -/
def complainOfMissing (text : Text) (error : OsError) : Action Unit := do
  tell (text ++ ": " ++ error.description ++ "\n")
  setStatus (missingStatus error)

/-- Complains of the way in which a program that runs others is called. -/
def misuse (name : Text) (status : Nat) (text : Text) : Action Unit := do
  tell (name ++ ": " ++ text ++ "\nTry \x27" ++ name ++ " --help\x27 for more information.\n")
  setStatus status

/-- A change of the environment by an argument: all of it is dropped, or a variable, or one gets a
value. -/
def changeEnvironment : (limit : Nat) → List Text → Action (List Text)
  | 0, arguments => pure arguments
  | limit + 1, arguments => do
    match arguments with
    | ['-', 'i'] :: others | ['-'] :: others =>
      modify ({ · with bindings := [] })
      changeEnvironment limit others
    | ['-', 'u'] :: name :: others =>
      modify (·.setBinding name none)
      changeEnvironment limit others
    | ('-' :: 'u' :: name) :: others =>
      modify (·.setBinding name none)
      changeEnvironment limit others
    | ['-', '-'] :: others => changeEnvironment limit others
    | argument :: others =>
      match Text.splitOnce "=" argument with
      | some (name, value) =>
        modify (·.setBinding name (some ⟨name, some value, true, false⟩))
        changeEnvironment limit others
      | none => pure arguments
    | [] => pure []

/-- Runs a program in a changed environment, or prints that. -/
def runEnvironment (launch : Launch → Action Unit) (name : Text) (arguments : List Text) :
    Action Unit := do
  let path := (← get).value? "PATH"
  match ← changeEnvironment (arguments.length + 1) arguments with
  | [] =>
    for (variableName, value) in (← get).environment do
      let _ ← write 1 (Text.bytes (variableName ++ "=" ++ value ++ "\n"))
    setStatus 0
  | program :: others =>
    match (← get).value? "PATH", path with
    | none, some path => modify (·.setBinding "PATH" (some ⟨"PATH", some path, false, false⟩))
    | _, _ => pure ()
    launch ⟨program, others, complainOfMissing (name ++ ": " ++ Utility.quoted program)⟩

/-- The options of a program that limits the time of another one. -/
structure TimeLimit where
  signal : Signal
  killAfter : Option Nat
  preserves : Bool

/-- The options at the beginning of arguments, and what follows. -/
def readTimeLimit : (limit : Nat) → TimeLimit → List Text → TimeLimit × List Text
  | 0, found, arguments => (found, arguments)
  | limit + 1, found, arguments =>
    let named (name : Text) : TimeLimit :=
      { found with signal := (Builtin.signalNamed? name).getD found.signal }
    match arguments with
    | ['-', 's'] :: name :: others => readTimeLimit limit (named name) others
    | ['-', 'k'] :: time :: others =>
      readTimeLimit limit { found with killAfter := Utility.duration? time } others
    | argument :: others =>
      if argument = "--preserve-status" then
        readTimeLimit limit { found with preserves := true } others
      else if argument = "--foreground" ∨ argument = "-v" then readTimeLimit limit found others
      else
        match Text.after? "--signal=" argument, Text.after? "--kill-after=" argument,
          Text.after? "-s" argument, Text.after? "-k" argument with
        | some name, _, _, _ => readTimeLimit limit (named name) others
        | _, some time, _, _ =>
          readTimeLimit limit { found with killAfter := Utility.duration? time } others
        | _, _, some name, _ => readTimeLimit limit (named name) others
        | _, _, _, some time =>
          readTimeLimit limit { found with killAfter := Utility.duration? time } others
        | _, _, _, _ => (found, arguments)
    | [] => (found, [])

/-- Runs a program that is sent a signal after some time. -/
def runTimed (run : Runner) (launch : Launch → Action Unit) (name : Text)
    (arguments : List Text) : Action Unit := do
  let start : TimeLimit := ⟨⟨15, "TERM", "Terminated", false⟩, none, false⟩
  match readTimeLimit (arguments.length + 1) start arguments with
  | (options, time :: program :: others) =>
    match Utility.duration? time with
    | none => misuse name 125 ("invalid time interval " ++ Utility.quoted time)
    | some 0 => launch ⟨program, others, complainOfMissing
        (name ++ ": failed to run command " ++ Utility.quoted program)⟩
    | some duration =>
      let before ← get
      let deadline := before.time + duration
      let final : Signal := ⟨9, "KILL", "Killed", false⟩
      let kills := options.killAfter.toList.map fun delay =>
        (⟨before.number, true, deadline + delay, final, before.lineage⟩ : SentSignal)
      set { before with
        signals := before.signals ++
          (⟨before.number, true, deadline, options.signal, before.lineage⟩ : SentSignal) :: kills }
      let ending ← spawn run ({ · with group := before.number }) launch
        ⟨program, others, complainOfMissing
          (name ++ ": failed to run command " ++ Utility.quoted program)⟩
      let isLate := deadline ≤ (← get).time
      match ending with
      | .killed signal =>
        if isLate && !signal.isFinal && !options.preserves then setStatus 124
        else if isLate && signal.isFinal then throw (.killed signal)
        else setStatus ending.status
      | _ => setStatus (if isLate && !options.preserves then 124 else ending.status)
  | (_, _) =>
    tell ("Try \x27" ++ name ++ " --help\x27 for more information.\n")
    setStatus 125

/-- Runs a program for the words of the input. -/
def runForWords (run : Runner) (launch : Launch → Action Unit) (name : Text)
    (arguments : List Text) : Action Unit := do
  match Utility.Options.read "rt0" "nIL" (Utility.Options.bound arguments)
      (arguments.takeWhile fun word => word.head? == some '-' || word.all Char.isDigit) with
  | .error complaint => misuse name 1 complaint
  | .ok options =>
    let given := arguments.drop (arguments.takeWhile fun word =>
      word.head? == some '-' || word.all Char.isDigit).length
    let (mark, given) : Option Text × List Text :=
      match options.value? 'I' with
      | some mark => (some mark, given)
      | none => (none, given)
    let command := if given.isEmpty then ["echo".toList] else given
    let state ← get
    let bytes := suppliedBytes ((state.supply? 0).getD ([], 0)).1
    set (state.consume 0 bytes.length true)
    let text := Bytes.loose bytes
    let words : List Text :=
      if options.has '0' then (Text.splitAll '\x00' text).filter (· != [])
      else if mark.isSome then (Text.lines text).filter (· != [])
      else splitQuoted (text.length + 1) none text
    let size := ((options.value? 'n' <|> options.value? 'L').bind Utility.natural?).getD 1000000
    let groups : List (List Text) :=
      match mark with
      | some _ => words.map fun word => [word]
      | none =>
        if words.isEmpty then (if options.has 'r' then [] else [[]])
        else inGroups (words.length + 1) (max 1 size) words
    let mut status := 0
    for group in groups do
      let words : List Text :=
        match mark, group with
        | some mark, [word] => command.map (replaceAll mark word)
        | _, _ => command ++ group
      match words with
      | [] => pure ()
      | program :: others =>
        let ending ← spawn run (·.setStream 0 (some .null)) launch
          ⟨program, others, complainOfMissing (name ++ ": " ++ program)⟩
        match ending with
        | .exited 0 => pure ()
        | .exited code =>
          if code = 126 ∨ code = 127 then status := code else status := max status 123
        | .killed _ => status := 125
        | .overdue => pure ()
    setStatus status
where
  /-- The words of a text, in which quotes keep blanks. -/
  splitQuoted : (limit : Nat) → (word : Option Text) → Text → List Text
    | 0, word, _ => word.toList
    | _, word, [] => word.toList
    | limit + 1, word, character :: rest =>
      if character = '\x27' ∨ character = '"' then
        let (inside, after) := (Text.splitOnce [character] rest).getD (rest, [])
        splitQuoted limit (some (word.getD [] ++ inside)) after
      else if character = '\\' then
        splitQuoted limit (some (word.getD [] ++ rest.take 1)) (rest.drop 1)
      else if Arithmetic.isSpace character then word.toList ++ splitQuoted limit none rest
      else splitQuoted limit (some (word.getD [] ++ [character])) rest
  /-- The words in groups of a size. -/
  inGroups : (limit size : Nat) → List Text → List (List Text)
    | 0, _, _ => []
    | _, _, [] => []
    | limit + 1, size, words => words.take size :: inGroups limit size (words.drop size)
  /-- A text with another one in the place of a mark. -/
  replaceAll (mark value word : Text) : Text :=
    Text.join value (pieces (word.length + 1) mark word)
  /-- The pieces of a text between marks. -/
  pieces : (limit : Nat) → Text → Text → List Text
    | 0, _, text => [text]
    | limit + 1, mark, text =>
      match Text.splitOnce mark text with
      | some (before, after) => before :: pieces limit mark after
      | none => [text]

/-- Runs a program as another one that only prepares it. -/
def runPrepared (launch : Launch → Action Unit) (name : Text) (arguments : List Text)
    (status : Nat) (complaint : Text → Text) : Action Unit := do
  let options := arguments.takeWhile (·.head? == some '-')
  let given := arguments.drop options.length
  let given := if options.getLast? == some "-n".toList then given.drop 1 else given
  match given with
  | [] => misuse name status "missing operand"
  | program :: others => launch ⟨program, others, complainOfMissing (complaint program)⟩

/-! ## Becoming a program -/

/-- The interpreter that the first line of a file names, with an argument for it. -/
def interpreter? (content : Bytes) : Option (Text × List Text) := do
  let line ← (content.lines).head?
  let rest ← Text.after? "#!" (Bytes.loose (line.filter (· != Bytes.lineFeed)))
  let words := (Text.splitAll ' ' (Text.replaceChar '\t' ' ' rest)).filter (· != [])
  let path ← words.head?
  some (path, if words.tail.isEmpty then [] else [Text.join " " words.tail])

/-- Becomes a program; the limit bounds how many programs one after the other stand for others. -/
def become (run : Runner) : (limit : Nat) → Launch → Action Unit
  | 0, launch => launch.missing .tooManyLinks
  | limit + 1, launch => do
    let state ← get
    match state.resolve launch.name with
    | .error error => launch.missing error
    | .ok (path, place) =>
      let name := launch.name
      let arguments := launch.arguments
      let base := place.getLast?.getD []
      if place.dropLast = programDirectory then
        match Text.toString base with
        | "sh" | "dash" | "bash" => becomeShell run name arguments
        | "env" => runEnvironment (become run limit) name arguments
        | "timeout" => runTimed run (become run limit) name arguments
        | "nohup" =>
          runPrepared (become run limit) name arguments 125 fun program =>
            name ++ ": failed to run command " ++ Utility.quoted program
        | "nice" =>
          if arguments.isEmpty then
            let _ ← write 1 (Text.bytes "0\n")
            setStatus 0
          else
            runPrepared (become run limit) name arguments 125 fun program =>
              name ++ ": " ++ Utility.quoted program
        | "stdbuf" =>
          runPrepared (become run limit) name arguments 125 fun program =>
            name ++ ": failed to run command " ++ Utility.quoted program
        | "setsid" =>
          runPrepared (become run limit) name arguments 1 fun program =>
            name ++ ": failed to execute " ++ program
        | "xargs" => runForWords run (become run limit) name arguments
        | _ => runUtility run base name arguments
      else
        match state.files.readBytes path with
        | .error error => launch.missing error
        | .ok content =>
          match interpreter? content with
          | some (interpreter, options) =>
            become run limit
              ⟨interpreter, options ++ path :: arguments, launch.missing⟩
          | none => becomeShell run name (path :: arguments)

/-- How many programs may stand for others. -/
def programDepth : Nat := 16

/-- Becomes a program that gets the variables of the shell, looks after signals and the time that it
takes, and ends. -/
def execute (run : Runner) (launch : Launch) : Action Unit := do
  modify (·.arrange)
  become run programDepth launch
  settle run

end CompiledViews.Shell
