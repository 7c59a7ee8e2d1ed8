import CompiledViews.Host.Shell.Builtin
import CompiledViews.Host.Shell.Scan

/-!
# Processes

A shell runs parts of a script in processes of their own. One that runs in the foreground is
followed to its end before the shell goes on. One in the background is followed when the shell has
to know of it: when time has passed, when the shell waits, or when the shell has ended.
-/

namespace CompiledViews.Shell

/-- How a script is evaluated: its failure may be `tested`, which ends no shell, and it may be the
`last` thing that its process does. -/
structure Manner where
  tested : Bool
  last : Bool
deriving DecidableEq, Repr

/-- How scripts are evaluated. -/
abbrev Runner := Manner → Script → Action Unit

/-! ## Scripts as text -/

/-- Evaluates the scripts of lines, and then complains of what could not be read. -/
def runLines (run : Runner) (tested : Bool) : List Script → Option SyntaxError → Action Unit
  | [], none => pure ()
  | [], some error => do
    modify ({ · with line := error.line })
    fail ("Syntax error: " ++ error.reason)
  | script :: others, error => do
    modify fun state => { state with active := state.aliases }
    run ⟨tested, false⟩ script
    runLines run tested others error

/-- The script that a file holds; a directory holds none. -/
def State.scriptAt (state : State) (path : Text) : Except OsError Text :=
  match state.files.readBytes path with
  | .ok bytes => .ok (Bytes.loose bytes)
  | .error .isDirectory => .ok []
  | .error error => .error error

/-- Evaluates the script that a text is. -/
def runText (run : Runner) (tested : Bool) (text : Text) : Action Unit := do
  match Script.readAll text 1 with
  | ([], none) => setStatus 0
  | (scripts, error) => runLines run tested scripts error

/-! ## Signals -/

/-- A time that never comes. -/
def never : Nat := 1000000000000000

/-- The signals that reach a process up to a time and that it has not heard of yet. -/
def State.signalsUntil (state : State) (time : Nat) : List SentSignal :=
  let mine := state.signals.filter fun (sent : SentSignal) =>
    sent.process == (if sent.toGroup then state.group else state.number) && sent.time ≤ time
  (state.heard.foldl List.erase mine).mergeSort fun first second => first.time ≤ second.time

/-- Whether a signal does something to a process. -/
def State.heeds (state : State) (sent : SentSignal) : Bool :=
  !(state.ignores sent.signal || (sent.signal.harmless && (state.trap? sent.signal).isNone))

/-- The signals that have reached a process by now and that it has not heard of yet. -/
def State.dueSignals (state : State) : List SentSignal := state.signalsUntil state.time

/-- Stops a process until it is told to go on or is ended for good. -/
def stop (since : SentSignal) : Action Unit := do
  let state ← get
  let isEnd (sent : SentSignal) : Bool :=
    since.time ≤ sent.time && (sent.signal == .goOn || sent.signal.isFinal)
  match (state.signalsUntil never).filter isEnd with
  | sent :: _ =>
    set { state with time := max state.time sent.time }
    if sent.signal.isFinal then throw (.killed sent.signal)
  | [] => throw .overdue

/-- Hears of a signal, which is to be acted on if it is trapped. Otherwise it ends the process at
the time when it came, unless it is harmless. -/
def hear (sent : SentSignal) : Action Unit := do
  modify fun state => { state with heard := sent :: state.heard }
  let state ← get
  match if sent.signal.isFinal || sent.signal.stops then none else state.trap? sent.signal with
  | some [] => pure ()
  | some _ => set { state with caught := state.caught ++ [sent.signal] }
  | none =>
    if sent.signal.stops then stop sent
    else if sent.signal.harmless then pure ()
    else
      set { state with time := sent.time }
      throw (.killed sent.signal)

/-- Hears of the signals that have come by now. -/
def hearAll : Action Unit := do
  for sent in (← get).dueSignals do
    hear sent

/-- Does what is to be done on a signal. The status is as before afterwards. -/
def runTrap (run : Runner) (action : Text) : Action Unit := do
  let before ← get
  set { before with trapStatus := some before.status }
  runText run false action
  modify ({ · with status := before.status, trapStatus := before.trapStatus })

/-- Does what is to be done on the signals that have been caught. -/
def runCaught (run : Runner) : Action Unit := do
  let caught := (← get).caught
  modify ({ · with caught := [] })
  for signal in caught do
    match (← get).trap? signal with
    | some action => runTrap run action
    | none => pure ()

/-! ## Ends of processes -/

/-- Does what is to be done when the shell ends, and tells how it has ended. -/
def runExitTrap (run : Runner) : Action Ending := do
  let before ← get
  let signal : Signal := ⟨0, "EXIT", [], true⟩
  let ended : Action Ending := do return .exited ((← get).status % 256)
  match before.trap? signal with
  | none | some [] => ended
  | some action =>
    set { before.setTrap none signal with trapStatus := some before.status, loops := 0 }
    try
      runText run false action
      setStatus before.status
      ended
    catch stop =>
      match stop with
      | .exited | .failed => ended
      | .killed signal => pure (.killed signal)
      | .overdue => pure .overdue
      | _ =>
        setStatus before.status
        ended

/-- What a process does, and how it ends by that. -/
def conclude (run : Runner) (body : Action Unit) : Action Ending := do
  try
    body
    runExitTrap run
  catch stop =>
    match stop with
    | .killed signal => pure (.killed signal)
    | .overdue => pure .overdue
    | _ => runExitTrap run

/-- The traps that a process below keeps: what is ignored stays so. -/
def State.keptTraps (state : State) : List (Signal × Text) :=
  state.traps.filter fun entry => entry.2 == []

/-- The state in which a process below begins. -/
def State.descend (state : State) : State :=
  { state with
    number := state.fresh
    parent := state.number
    depth := state.depth + 1
    fresh := state.fresh + 1
    traps := state.keptTraps
    heard := []
    caught := []
    jobs := []
    trapStatus := none }

/-- The state of a process after another one has changed the surroundings. -/
def State.absorb (state after : State) : State :=
  { state with
    toSurroundings := { after.toSurroundings with
      files := { after.files with current := state.files.current } } }

/-! ## In the background -/

/-- How many steps a process in the background may take. -/
def backgroundSteps : Nat := 60000

/-- The state without what a process in the background has done so far. -/
def State.forget (state : State) (number : Nat) : State :=
  { state with
    printed := state.printed.filter (!·.lineage.contains number)
    signals := state.signals.filter (!·.lineage.contains number) }

/-- Whether a process in the background can write to a pipe. -/
def holdsPipe (process : Process) : Bool :=
  process.descriptors.any fun (_, stream) =>
    match stream with
    | .pipe _ => true
    | _ => false

/-- Follows a process in the background to its end. What it does in its own background is followed
by `rest` then. What it does to files is only done if it ends by now, or at last. -/
def runBirth (run : Runner) (rest : Action Unit) (all : Bool) (number : Nat) : Action Unit := do
  let before := (← get).forget number
  match before.births.find? (·.process.number == number) with
  | none => pure ()
  | some birth =>
    let start : State :=
      { toProcess := birth.process
        toSurroundings := { before.toSurroundings with
          files := { before.files with current := birth.place }
          steps := min before.steps backgroundSteps } }
    let body : Action Ending := do
      let ending ← conclude run (run ⟨false, true⟩ birth.script)
      rest
      pure ending
    let (ending, final) : Ending × State :=
      match body start with
      | .ok ending final => (ending, final)
      | .error _ final => (.overdue, final)
    let ends := if ending = .overdue then never else final.time
    let done := all || ends ≤ before.time
    let after := before.absorb final
    set { after with
      files := if done then after.files else before.files
      steps := before.steps - (min before.steps backgroundSteps - final.steps)
      held := if holdsPipe birth.process then max final.held ends else final.held
      jobs := before.jobs.map fun (job : Job) =>
        if job.process = number then { job with ending := some (ending, ends), done } else job }

/-- Follows the processes in the background that are not done: all of them, or those that began
before now. The limit bounds how deep they are nested. -/
def runBirths (run : Runner) : (limit : Nat) → (all : Bool) → Action Unit
  | 0, _ => pure ()
  | limit + 1, all => do
    let state ← get
    for job in state.jobs do
      let hasBegun := state.births.any fun birth =>
        birth.process.number == job.process && birth.process.time < state.time
      let isNews := job.ending.all fun (_, ends) => ends ≤ state.time
      if !job.done && (all || (hasBegun && isNews)) then
        runBirth run (runBirths run limit true) all job.process

/-- How deep processes in the background may be nested. -/
def backgroundDepth : Nat := 8

/-- Looks after what has happened until now: in the background, by signals, and to the time. -/
def settle (run : Runner) : Action Unit := do
  runBirths run backgroundDepth false
  hearAll
  let state ← get
  if state.limit.any (· < state.time) then throw .overdue
  runCaught run

/-- Is busy until a signal comes that does something, or until something ends in the background. If
neither ever happens that takes too long. -/
def stayBusy (run : Runner) : Action Unit := do
  let before ← get
  set { before with steps := backgroundSteps }
  runBirths run backgroundDepth true
  let state ← get
  let ends := (state.jobs.filter fun (job : Job) =>
    before.jobs.any fun (other : Job) => other.process == job.process && !other.done).filterMap
      fun (job : Job) => (job.ending.map (·.2)).filter (· < never)
  match (state.signalsUntil never).filter state.heeds, ends with
  | sent :: _, _ =>
    set { state with time := max state.time sent.time, steps := backgroundSteps }
    settle run
  | [], _ :: _ =>
    set { state with time := ends.foldl max state.time, steps := backgroundSteps }
    settle run
  | [], [] => throw .overdue

/-- Begins a script in the background. It ignores what is typed to end the foreground, and reads
nothing. -/
def beginBackground (body : Script) : Action Unit := do
  let state ← get
  let below := state.descend
  let ignored : List (Signal × Text) := (["INT", "QUIT"] : List Text).filterMap fun name =>
    (Signal.find? name).map (·, [])
  let process : Process :=
    { below.toProcess with
      traps := ignored ++ below.traps
      limit := none
      lineage := below.number :: below.lineage
      descriptors := (0, Stream.null) :: below.descriptors.filter (·.1 != 0) }
  set { state with
    fresh := below.fresh
    births := (⟨process, state.files.current, body⟩ : Birth) :: state.births
    jobs := (state.jobs.filter fun (job : Job) => !job.reaped) ++
      [(⟨below.number, none, false, false⟩ : Job)]
    lastJob := some below.number
    status := 0 }

/-! ## In the foreground -/

/-- How deep processes may be nested. -/
def processDepth : Nat := 1000

/-- Does something in a process of its own, from a state that is prepared for it, and tells how that
ends. What signals have reached the shell meanwhile is not heard yet. -/
def branchOff (run : Runner) (prepare : State → State) (body : Action Unit) : Action Ending := do
  let before ← get
  if processDepth ≤ before.depth then throw .overdue
  let whole : Action Ending := do
    let ending ← conclude run body
    runBirths run backgroundDepth true
    pure ending
  let (ending, final) : Ending × State :=
    match whole (prepare before.descend) with
    | .ok ending final => (ending, final)
    | .error _ final => (.overdue, final)
  set { before.absorb final with time := max before.time final.time }
  if ending = .overdue then throw .overdue
  pure ending

/-- Does something in a process of its own, from a state that is prepared for it, and tells how that
ends, unless a signal ends the shell itself meanwhile. -/
def fork (run : Runner) (prepare : State → State) (body : Action Unit) : Action Ending := do
  let ending ← branchOff run prepare body
  hearAll
  pure ending

/-- Tells of an ending by a signal as far as that is told of. -/
def announce (ending : Ending) : Action Unit := do
  match ending with
  | .killed signal =>
    if signal.description != [] then tell (signal.description ++ "\n")
  | _ => pure ()

/-- Tells of an ending by a signal as far as that is told of, and sets the status. -/
def report (ending : Ending) : Action Unit := do
  announce ending
  setStatus ending.status

/-- What comes out of a pipe: its bytes, the time of their end, and how many bytes it would still
take. -/
structure PipeOutput where
  supply : List TimedBytes
  ends : Nat
  room : Nat

/-- How many bytes a pipe takes in while it is not known whether anybody reads on. -/
def pipeRoom : Nat := 300000

/-- How many bytes a pipe takes in that is read to its end. -/
def endlessRoom : Nat := 1000000000000

/-- Does something that may write to a new pipe, and tells what has come out of that. -/
def capture {α : Type} (room : Nat) (closes : Option Nat) (body : Stream → Action α) :
    Action (α × PipeOutput) := do
  let before ← get
  let number := before.fresh
  set { before with
    fresh := number + 1
    pipes := (number, ⟨room, closes⟩) :: before.pipes
    printed := []
    held := 0 }
  let result ← body (.pipe number)
  let after ← get
  let (mine, others) := after.printed.partition (·.stream == .pipe number)
  let supply := (inOrder mine).map fun piece => (piece.time, piece.bytes)
  set { after with
    printed := others ++ before.printed
    held := max before.held after.held
    pipes := after.pipes.filter (·.1 != number) }
  pure (result, ⟨supply, max after.time after.held,
    ((after.pipes.lookup number).map Pipe.room).getD 0⟩)

/-- The output of a script in a process of its own. -/
def substitute (run : Runner) (script : Script) : Action Bytes := do
  let (ending, output) ← capture endlessRoom none fun stream =>
    branchOff run (·.setStream 1 (some stream)) (run ⟨false, true⟩ script)
  hearAll
  announce ending
  modify fun state =>
    { state with time := max state.time output.ends, substituted := some ending.status }
  pure (suppliedBytes output.supply)

/-! ## Pipelines -/

/-- How a process has ended, and when. -/
abbrev TimedEnding := Ending × Nat

/-- Does something with another input. -/
def withInput {α : Type} (stream : Stream) (body : Action α) : Action α := do
  let before ← get
  set (before.setStream 0 (some stream))
  let result ← body
  modify ({ · with descriptors := before.descriptors })
  pure result

/-- Runs a stage of a pipeline and then the others, which read what it writes. Where they end before
it has written all, it runs again with a pipe that is closed then; and with one that takes in more
where that has been too little. -/
def runStage (run : Runner) (body : Action Unit) (others : Action (List TimedEnding)) :
    (limit : Nat) → (room : Nat) → (closes : Option Nat) → Action (List TimedEnding)
  | 0, _, _ => pure []
  | limit + 1, room, closes => do
    let before ← get
    let (ending, output) ← capture room closes fun stream =>
      branchOff run (·.setStream 1 (some stream)) body
    let ends := (← get).time
    let (source, opened) := (← get).openNew (.supply output.supply output.ends)
    set { opened with time := before.time }
    let endings ← withInput source others
    let closing := (endings.head?.map (·.2)).getD before.time
    let after ← get
    let isRead : Bool :=
      match source with
      | .opened number =>
        match after.opened? number with
        | some (.supply left _) => left.isEmpty
        | _ => false
      | _ => false
    let again : Bool := limit != 0
    if again && closes.isNone && output.supply.any (closing < ·.1) then
      set before
      runStage run body others limit room (some closing)
    else if again && output.room = 0 && isRead then
      set before
      runStage run body others limit (16 * room) closes
    else
      set { after with time := before.time }
      pure ((ending, ends) :: endings)

/-- How often a stage of a pipeline runs at most. -/
def stageLimit : Nat := 6

/-- Runs the stages of a pipeline, each one in a process of its own, all from now on. -/
def runStages (run : Runner) (manner : Manner) : List Script → Action (List TimedEnding)
  | [] => pure []
  | [stage] => do
    let before ← get
    let ending ← branchOff run id (run { manner with last := true } stage)
    let ends := (← get).time
    modify ({ · with time := before.time })
    pure [(ending, ends)]
  | stage :: others =>
    runStage run (run { manner with last := true } stage) (runStages run manner others) stageLimit
      pipeRoom none

/-- Runs a pipeline, whose status is that of its last stage. -/
def runPipe (run : Runner) (manner : Manner) (stages : List Script) : Action Unit := do
  let endings ← runStages run manner stages
  modify fun state =>
    { state with time := (endings.map (·.2)).foldl max state.time }
  hearAll
  for (ending, _) in endings do
    report ending

/-! ## Waiting -/

/-- Waits until a time, or until a signal comes before it that is acted on, which is then told. -/
def waitUntil (time : Nat) : Action (Option Signal) := do
  let state ← get
  let isFirst (sent : SentSignal) : Bool := state.heeds sent && sent.time < time
  match (state.signalsUntil time).filter isFirst with
  | sent :: _ =>
    set { state with time := max state.time sent.time }
    pure (some sent.signal)
  | [] =>
    set { state with time := max state.time time }
    pure none

/-- Waits for a process in the background, and tells its status. -/
def waitFor (word : Text) : Action Nat := do
  let state ← get
  let number ← Builtin.processNamed state word
  match state.jobs.find? (·.process == number) with
  | none => pure 127
  | some job =>
    let (ending, ends) := job.ending.getD (.exited 0, state.time)
    match ← waitUntil ends with
    | some signal => pure signal.status
    | none =>
      if state.time ≤ ends && !job.reaped then report ending
      modify fun after =>
        { after with jobs := after.jobs.map fun (other : Job) =>
            if other.process = number then { other with reaped := true } else other }
      pure ending.status

/-- Waits for processes in the background, by default for all of them. -/
def wait (run : Runner) : Builtin := fun arguments => do
  runBirths run backgroundDepth true
  match arguments with
  | [] =>
    let state ← get
    let ends := state.jobs.filterMap (·.ending.map (·.2))
    match ← waitUntil (ends.foldl max state.time) with
    | some signal => pure signal.status
    | none =>
      modify fun after =>
        { after with jobs := after.jobs.map fun (job : Job) => { job with reaped := true } }
      pure 0
  | words =>
    let mut status := 0
    for word in words do
      status ← waitFor word
    pure status

end CompiledViews.Shell
