import CompiledViews.FileTree.Action
import CompiledViews.Host.Output
import CompiledViews.Host.Shell.Script
import CompiledViews.Host.Signal
import CompiledViews.Text.Loose

/-!
# The state of a shell

What a script sees and changes. A process of a shell has its own variables, descriptors and time;
files and what has been printed are common to all processes. Times are milliseconds since the
beginning.
-/

namespace CompiledViews.Shell

/-- Why a script does not go on: it leaves a number of loops or goes on with the next round of the
last of them, it returns from a function, its shell ends, also because of an error, or is killed
by a signal, or it takes too long. -/
inductive Stop where
  | leaving (loops : Nat)
  | skipping (loops : Nat)
  | returning
  | exited
  | failed
  | killed (signal : Signal)
  | overdue
deriving DecidableEq, Repr

/-- How a process has ended. -/
inductive Ending where
  | exited (status : Nat)
  | killed (signal : Signal)
  | overdue
deriving DecidableEq, Repr

/-- The status that stands for an ending. -/
def Ending.status : Ending → Nat
  | exited status => status
  | killed signal => signal.status
  | overdue => 0

/-- What a descriptor leads to: a channel of the host, the end of a pipe where it is written, what
has been opened under a number, or a file of the system that is empty, endless or full. -/
inductive Stream where
  | channel (channel : Channel)
  | pipe (number : Nat)
  | opened (number : Nat)
  | null
  | zero
  | full
deriving DecidableEq, Repr

/-- Bytes and the time when they are there. -/
abbrev TimedBytes := Nat × Bytes

/-- What has been opened: the end of a pipe where it is read, with what is left and the time when no
more will come, or a file at a path with the place of the next byte. -/
inductive Opened where
  | supply (left : List TimedBytes) (ends : Nat)
  | file (path : Text) (offset : Nat) (mode : OpenMode)

/-- A pipe: how many bytes it still takes while nobody reads, and when reading ends for good. -/
structure Pipe where
  room : Nat
  closes : Option Nat

/-- Bytes that have been printed, with the time, the stream that they go to, and the processes in
the background that this has been done in. -/
structure Piece where
  time : Nat
  stream : Stream
  lineage : List Nat
  bytes : Bytes

/-- A signal that has been sent to a process, or to the group of processes with that number, with
the time and the processes in the background that this has been done in. -/
structure SentSignal where
  process : Nat
  toGroup : Bool
  time : Nat
  signal : Signal
  lineage : List Nat
deriving DecidableEq, Repr

/-- A variable: its value, if it has one, whether programs get to know it, and whether it cannot be
changed. -/
structure Binding where
  name : Text
  value : Option Text
  exported : Bool
  readOnly : Bool
deriving DecidableEq, Repr

/-- A function of a script. -/
structure Function where
  name : Text
  body : Script

/-- A process in the background that a shell knows of: its number, how and when it ends as far as
that has been found out, whether all that it does has been done, and whether it has been waited
for. -/
structure Job where
  process : Nat
  ending : Option (Ending × Nat)
  done : Bool
  reaped : Bool
deriving DecidableEq, Repr

/-- What a process of a shell has of its own. It stands at a `depth` below the first process, and
its `group` may be sent signals together. `shellNumber` is the process of the shell that a script
began with, `name` what that goes by. `scopes` holds what the local variables of the functions at
work hide, `hashed` the names of programs that have been found, `active` the abbreviations that may
be used already, `heard` the signals that have arrived, and `caught` those that are still to be
acted on. Each option is a letter. The time must not pass a `limit`. `optionOffset` is the place in
the argument whose options are being read, `trapStatus` the status from before what is done on a
signal, and `substituted` that of the last script whose output has been put into a word. The
processes in the background that the process belongs to are its `lineage`. -/
structure Process where
  number : Nat
  parent : Nat
  depth : Nat
  group : Nat
  shellNumber : Nat
  lineage : List Nat
  name : Text
  arguments : List Text
  bindings : List Binding
  scopes : List (List (Text × Option Binding))
  functions : List Function
  hashed : List Text
  aliases : List (Text × Text)
  active : List (Text × Text)
  traps : List (Signal × Text)
  heard : List SentSignal
  caught : List Signal
  options : List Char
  descriptors : List (Nat × Stream)
  directory : Text
  mask : Nat
  jobs : List Job
  lastJob : Option Nat
  status : Nat
  time : Nat
  limit : Option Nat
  loops : Nat
  calls : Nat
  line : Nat
  command : Option Text
  optionOffset : Nat
  trapStatus : Option Nat
  substituted : Option Nat

/-- What begins in the background: its process as it is then, the directory that it is in, and its
script. -/
structure Birth where
  process : Process
  place : List Text
  script : Script

/-- What all processes have in common. Printed bytes are held newest first, `signals` tells which
process is sent a signal at which time, `births` are all processes that began in the background,
`held` tells until when something in the background may still write to a pipe, `fresh` is the next
free number, and `steps` are left before a script counts as one that never ends. -/
structure Surroundings where
  files : FileTree
  programs : List (List Text)
  opened : List (Nat × Opened)
  pipes : List (Nat × Pipe)
  printed : List Piece
  signals : List SentSignal
  births : List Birth
  held : Nat
  fresh : Nat
  steps : Nat

/-- A process at work. -/
structure State extends Process, Surroundings

/-- What a shell does. -/
abbrev Action := EStateM Stop State

/-! ## Variables -/

namespace State

def binding? (state : State) (name : Text) : Option Binding :=
  state.bindings.find? (·.name == name)

/-- The value of a variable, if it has one. -/
def value? (state : State) (name : Text) : Option Text := (state.binding? name).bind (·.value)

def has (state : State) (option : Char) : Bool := state.options.contains option

/-- The state with another variable of that name, or without one. A new variable comes last. -/
def setBinding (state : State) (name : Text) (binding : Option Binding) : State :=
  { state with
    bindings :=
      if (state.binding? name).isSome then
        state.bindings.flatMap fun old => if old.name == name then binding.toList else [old]
      else state.bindings ++ binding.toList }

/-- The state with a value of a variable, whether it may be changed or not. -/
def assign (state : State) (name value : Text) : State :=
  let exported := state.has 'a'
  let state := if name = "PATH" then { state with hashed := [] } else state
  match state.binding? name with
  | some binding =>
    state.setBinding name
      (some { binding with value := some value, exported := binding.exported || exported })
  | none => state.setBinding name (some ⟨name, some value, exported, false⟩)

/-- The part of the variables of a shell that one belongs to by its name. -/
def bucket (name : Text) : Nat :=
  ((name.head?.map Char.toNat).getD 0 * 16 + (name.map Char.toNat).foldl (· + ·) 0) % 39

/-- The state in which the variables of a shell stand in the order in which programs get them. -/
def arrange (state : State) : State :=
  { state with
    bindings := state.bindings.mergeSort fun first second =>
      bucket first.name ≤ bucket second.name }

/-- The state with a value of a variable that programs get to know from then on. -/
def assignKnown (state : State) (name value : Text) : State :=
  let after := state.assign name value
  after.setBinding name ((after.binding? name).map ({ · with exported := true }))

/-- The state in which a program of that name has been found. -/
def hash (state : State) (name : Text) : State :=
  if state.hashed.contains name then state else { state with hashed := state.hashed ++ [name] }

/-- The variables that programs get to know, with their values. -/
def environment (state : State) : List (Text × Text) :=
  state.bindings.filterMap fun binding =>
    if binding.exported then binding.value.map (binding.name, ·) else none

/-- The characters that separate words. -/
def separators (state : State) : Text := (state.value? "IFS").getD " \t\n"

/-- The text that joins words: the first of the characters that separate them. -/
def joint (state : State) : Text := state.separators.take 1

/-- The value of a parameter, if it has one. -/
def parameter? (state : State) (name : Text) : Option Text :=
  match name with
  | ['?'] => some (Text.ofNat state.status)
  | ['$'] => some (Text.ofNat state.shellNumber)
  | ['!'] => state.lastJob.map Text.ofNat
  | ['#'] => some (Text.ofNat state.arguments.length)
  | ['-'] => some state.options
  | ['@'] | ['*'] =>
    if state.arguments.isEmpty then none else some (Text.join state.joint state.arguments)
  | _ =>
    if name.all Char.isDigit then
      match Text.toString name |>.toNat? with
      | some 0 => some state.name
      | some place => state.arguments[place - 1]?
      | none => none
    else state.value? name

/-- What is done on a signal, if that is not left to the system. -/
def trap? (state : State) (signal : Signal) : Option Text :=
  (state.traps.find? fun entry => entry.1 == signal).map (·.2)

def ignores (state : State) (signal : Signal) : Bool := state.trap? signal == some []

/-- The state in which something else is done on a signal, or what the system does. -/
def setTrap (state : State) (action : Option Text) (signal : Signal) : State :=
  let others := state.traps.filter fun entry => entry.1 != signal
  { state with traps := action.toList.map (signal, ·) ++ others }

end State

/-! ## Streams -/

/-- Why bytes cannot be written or read. -/
inductive StreamError where
  | closed
  | full
  | broken
deriving DecidableEq, Repr

/-- The error in words. -/
def StreamError.description : StreamError → Text
  | closed => "Bad file descriptor"
  | full => "No space left on device"
  | broken => "Broken pipe"

/-- The entry with a number in place of the one that is there. -/
def setNumbered {α : Type} (number : Nat) (value : α) (entries : List (Nat × α)) :
    List (Nat × α) :=
  (number, value) :: entries.filter (·.1 != number)

namespace State

/-- What a descriptor leads to; nothing if it is closed. -/
def stream? (state : State) (descriptor : Nat) : Option Stream :=
  state.descriptors.lookup descriptor

/-- The state in which a descriptor leads elsewhere, or is closed. -/
def setStream (state : State) (descriptor : Nat) (stream : Option Stream) : State :=
  { state with
    descriptors := stream.toList.map (descriptor, ·) ++
      state.descriptors.filter (·.1 != descriptor) }

/-- What has been opened under a number. -/
def opened? (state : State) (number : Nat) : Option Opened := state.opened.lookup number

/-- The state with something opened, and its stream. -/
def openNew (state : State) (opened : Opened) : Stream × State :=
  (.opened state.fresh,
    { state with opened := (state.fresh, opened) :: state.opened, fresh := state.fresh + 1 })

/-- The state with a piece printed at its time. -/
def printPiece (state : State) (stream : Stream) (bytes : Bytes) : State :=
  if bytes.isEmpty then state
  else { state with printed := ⟨state.time, stream, state.lineage, bytes⟩ :: state.printed }

end State

/-- The files after an action, whether it succeeds or not. -/
def filesAfter (action : FileAction Unit) (files : FileTree) : FileTree :=
  match action files with
  | .ok _ next => next
  | .error _ next => next

/-- Puts bytes into the file at a path from a place on. A file that is gone stays so. -/
def overwrite (path : Text) (offset : Nat) (bytes : Bytes) : FileAction Unit := do
  match (← get).readBytes path with
  | .ok before =>
    let start := before.take offset ++ List.replicate (offset - before.length) 0
    FileTree.writeFile path (start ++ bytes ++ before.drop (offset + bytes.length))
  | .error _ => pure ()

/-- Writes to an open file, if it may be written. -/
def writeOpened (number : Nat) (bytes : Bytes) : Action (Option StreamError) := do
  let state ← get
  match state.opened? number with
  | none | some (.supply ..) | some (.file _ _ .read) => pure (some .closed)
  | some (.file path offset mode) =>
    let length := ((state.files.readBytes path).toOption.getD []).length
    let place := if mode = .append then length else offset
    set { state with
      files := filesAfter (overwrite path place bytes) state.files
      opened := setNumbered number (.file path (place + bytes.length) mode) state.opened }
    pure none

/-- Writes into a pipe. Where nobody reads on, that kills the process unless it ignores the
signal. -/
def writePipe (number : Nat) (bytes : Bytes) : Action (Option StreamError) := do
  let state ← get
  let pipe := (state.pipes.lookup number).getD ⟨bytes.length, none⟩
  let isClosed := match pipe.closes with
    | some time => decide (time < state.time)
    | none => false
  let room := if isClosed then 0 else pipe.room
  set { state.printPiece (.pipe number) (bytes.take room) with
    pipes :=
      if isClosed then state.pipes
      else setNumbered number { pipe with room := room - bytes.length } state.pipes }
  if bytes.length ≤ room then pure none
  else if state.ignores .brokenPipe then pure (some .broken)
  else throw (.killed .brokenPipe)

/-- Writes to a descriptor, and tells why that cannot be done. -/
def write (descriptor : Nat) (bytes : Bytes) : Action (Option StreamError) := do
  let state ← get
  if bytes.isEmpty then pure none
  else
    match state.stream? descriptor with
    | none => pure (some .closed)
    | some .null | some .zero => pure none
    | some .full => pure (some .full)
    | some (.channel channel) =>
      set (state.printPiece (.channel channel) bytes)
      pure none
    | some (.pipe number) => writePipe number bytes
    | some (.opened number) => writeOpened number bytes

/-- How many bytes are enough of those that never end. -/
def enough : Nat := 400000

/-- What can be read from a descriptor, and the time when no more will come; nothing if it cannot be
read. -/
def State.supply? (state : State) (descriptor : Nat) : Option (List TimedBytes × Nat) :=
  match state.stream? descriptor with
  | none | some (.pipe _) => none
  | some .null | some (.channel _) => some ([], state.time)
  | some .zero | some .full => some ([(state.time, List.replicate enough 0)], state.time)
  | some (.opened number) =>
    match state.opened? number with
    | none => none
    | some (.supply left ends) => some (left, ends)
    | some (.file path offset mode) =>
      if mode = .read ∨ mode = .readWrite then
        some ([(state.time, ((state.files.readBytes path).toOption.getD []).drop offset)],
          state.time)
      else none

def suppliedBytes (supply : List TimedBytes) : Bytes := supply.flatMap (·.2)

/-- What is left of a supply after a number of bytes. -/
def dropSupply : (count : Nat) → List TimedBytes → List TimedBytes
  | _, [] => []
  | count, (time, bytes) :: others =>
    if bytes.length ≤ count then dropSupply (count - bytes.length) others
    else (time, bytes.drop count) :: others

/-- The time when a number of bytes of a supply are there, if there are as many. -/
def supplyTime? : (count : Nat) → List TimedBytes → Option Nat
  | _, [] => none
  | count, (time, bytes) :: others =>
    if count ≤ bytes.length then some time else supplyTime? (count - bytes.length) others

/-- The state after a number of bytes have been read from a descriptor, or after its end has been
met. That takes the time until they are there. -/
def State.consume (state : State) (descriptor count : Nat) (toEnd : Bool) : State :=
  match state.supply? descriptor with
  | none => state
  | some (supply, ends) =>
    let ready :=
      if toEnd then ends
      else if count = 0 then state.time
      else (supplyTime? count supply).getD ends
    let later := { state with time := max state.time ready }
    match state.stream? descriptor with
    | some (.opened number) =>
      let left : Option Opened :=
        (later.opened? number).map fun opened =>
          match opened with
          | .supply left ends => .supply (dropSupply count left) ends
          | .file path offset mode => .file path (offset + count) mode
      { later with opened := left.toList.map (number, ·) ++ later.opened.filter (·.1 != number) }
    | _ => later

/-- The path of the file or directory that a descriptor leads to. -/
def State.fileAt? (state : State) (descriptor : Nat) : Option Text :=
  match state.stream? descriptor with
  | some (.opened number) =>
    match state.opened? number with
    | some (.file path _ _) => some path
    | _ => none
  | _ => none

/-- How many bytes a program reads of its input at once. -/
def blockSize : Nat := 8192

/-- How many bytes are gone after blocks have been read that hold a number of bytes, from what is
there then. What a file holds is not gone. -/
def State.wholeBlocks (state : State) (descriptor count : Nat) : Nat :=
  match state.supply? descriptor with
  | some (supply, _) =>
    if (state.fileAt? descriptor).isSome || count == 0 then count
    else
      let ready := max state.time ((supplyTime? count supply).getD state.time)
      let there := (suppliedBytes (supply.filter (·.1 ≤ ready))).length
      min there (blockSize * ((count + blockSize - 1) / blockSize))
  | none => count

/-! ## Complaints -/

/-- Writes a text to where the shell complains. -/
def tell (text : Text) : Action Unit := do
  let _ ← write 2 text.bytes

/-- Complains in the name of the shell, and of the command of its own that is at work. -/
def complain (text : Text) : Action Unit := do
  let state ← get
  let command : Text :=
    match state.command with
    | some name => name ++ ": "
    | none => []
  tell (state.name ++ ": " ++ Text.ofNat state.line ++ ": " ++ command ++ text ++ "\n")

def setStatus (status : Nat) : Action Unit := modify ({ · with status })

/-- Complains of an error that the shell cannot go on with. -/
def fail {α : Type} (text : Text) : Action α := do
  complain text
  setStatus 2
  throw .failed

/-- Assigns a value to a variable, unless it cannot be changed. -/
def assign (name value : Text) : Action Unit := do
  let state ← get
  if (state.binding? name).any (·.readOnly) then fail (name ++ ": is read only")
  else
    set { state.assign name value with
      optionOffset := if name = "OPTIND" then 0 else state.optionOffset }

/-- Writes what a command of the shell prints to its output; it fails if that cannot be done. -/
def print (name : Text) (bytes : Bytes) : Action Nat := do
  match ← write 1 bytes with
  | none => pure 0
  | some _ =>
    complain (name ++ ": I/O error")
    pure 1

/-- Writes a text to the output. -/
def printText (name text : Text) : Action Nat := print name text.bytes

/-! ## What has been printed -/

def inOrder (printed : List Piece) : List Piece :=
  printed.reverse.mergeSort fun first second => first.time ≤ second.time

/-- What has been printed to the channels of the host, in order. -/
def State.shown (state : State) : List (Channel × Bytes) :=
  (inOrder state.printed).filterMap fun piece =>
    match piece.stream with
    | .channel channel => some (channel, piece.bytes)
    | _ => none

end CompiledViews.Shell
