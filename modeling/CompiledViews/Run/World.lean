import CompiledViews.Run.Task

/-!
# Worlds

The state of a run: its threads, what they have reported, and the files. A world changes when a
thread takes a turn, when a tool ends, or when the run is cancelled. Which of these comes next is
left open, so what holds after every sequence of choices holds whatever the threads are slowed down
by.
-/

namespace CompiledViews

/-- Where a thread is: before its next step, waiting for a tool, waiting for other threads, or at
its end. -/
inductive Phase where
  | ready (task : Task)
  | inFlight (tool : Tool) (command : Command) (next : Outcome → Task)
  | awaiting (others : List Nat) (next : Task)
  | ended

/-- Whether the thread is at its end. -/
def Phase.hasEnded : Phase → Bool
  | ended => true
  | _ => false

/-- Whether a thread that is to stop stops here, once it has started. -/
def Phase.isPause : Phase → Bool
  | ready (.pause _) => true
  | ready _ => false
  | _ => true

/-- A thread. `started` tells whether it has taken a turn, `aborted` whether it is to stop. -/
structure Thread where
  phase : Phase
  started : Bool
  aborted : Bool

/-- A thread that is about to begin. -/
def Thread.new (task : Task) : Thread := ⟨.ready task, false, false⟩

/-- A tool that a thread asked for. It is refused where the run is cancelled already. -/
structure Launch where
  tool : Tool
  command : Command
  refused : Bool
deriving DecidableEq, Repr

/-- What a tool does when it ends: its outcome, and its effect on the files. -/
structure Landing where
  outcome : Outcome
  effect : FileTree → FileTree

/-- The state of a run. Threads are known by their places in the list, of which the first one is
the main thread. -/
structure World where
  threads : List Thread
  registry : List Nat
  progress : Progress
  reports : List Report
  delivered : List View
  launches : List Launch
  cancelled : Bool
  files : FileTree

namespace World

/-- The world in which a task is about to begin. -/
def new (task : Task) (steps : Nat) (files : FileTree) : World where
  threads := [.new task]
  registry := []
  progress := .ofTotal steps
  reports := []
  delivered := []
  launches := []
  cancelled := false
  files := files

/-- The phase of a thread; one that does not exist is at its end. -/
def phase (world : World) (id : Nat) : Phase :=
  match world.threads[id]? with
  | some thread => thread.phase
  | none => .ended

def hasEnded (world : World) (id : Nat) : Bool := (world.phase id).hasEnded

/-- The world with another phase of a thread, which has started by then. -/
def setPhase (world : World) (id : Nat) (phase : Phase) : World :=
  { world with
    threads := world.threads.modify id fun thread => { thread with phase, started := true } }

def report (world : World) (report : Report) : World :=
  { world with reports := world.reports ++ [report] }

def reportStatus (world : World) (message : Text) (progress : Progress) : World :=
  { world with progress, reports := world.reports ++ [.status message progress] }

/-- The world with the contents of a view, unless that has some already. -/
def deliver (world : World) (view : View) (content : Content) : World :=
  if world.delivered.contains view then world
  else { world with
    delivered := view :: world.delivered
    reports := world.reports ++ [.content view content] }

/-- The world in which the registered threads are to stop. -/
def abortAll (world : World) : World :=
  { world with
    threads := world.threads.mapIdx fun id thread =>
      if world.registry.contains id then { thread with aborted := true } else thread }

/-- The world after an action on the files, and the error of that. -/
def change (world : World) (action : FileAction Unit) : World × Option OsError :=
  match action world.files with
  | .ok _ files => ({ world with files }, none)
  | .error error files => ({ world with files }, some error)

/-- The world after the next step of a thread. -/
def takeStep (world : World) (id : Nat) : Task → World
  | .done => world.setPhase id .ended
  | .update message next =>
    (world.reportStatus message world.progress).setPhase id (.ready next)
  | .advance message count next =>
    (world.reportStatus message (world.progress.advance count)).setPhase id (.ready next)
  | .skipToEnd message next =>
    (world.reportStatus message world.progress.skipToEnd).setPhase id (.ready next)
  | .log text isError next => (world.report (.log text isError)).setPhase id (.ready next)
  | .deliver view content next => (world.deliver view content).setPhase id (.ready next)
  | .spawn child next =>
    let spawned := world.setPhase id (.ready next)
    { spawned with
      threads := spawned.threads ++ [.new child]
      registry := spawned.registry ++ [spawned.threads.length] }
  | .abortAll next => world.abortAll.setPhase id (.ready next)
  | .awaitAll next => world.setPhase id (.awaiting [] next)
  | .pause next => world.setPhase id (.ready next)
  | .askCancelled next => world.setPhase id (.ready (next world.cancelled))
  | .call tool command next =>
    let launch := Launch.mk tool command world.cancelled
    let asked := { world with launches := world.launches ++ [launch] }
    if world.cancelled then asked.setPhase id (.ready (next (.error .cancelled)))
    else asked.setPhase id (.inFlight tool command next)
  | .change action next =>
    let (changed, error) := world.change action
    changed.setPhase id (.ready (next error))
  | .look next => world.setPhase id (.ready (next world.files))

/-- The world after a turn of a thread, if it can take one. A thread that waits for others goes on
from one to the next as they end; when the last one has ended it takes those that have been
registered meanwhile, and when there are none it is done waiting. -/
def turn (world : World) (id : Nat) : Option World :=
  match world.threads[id]? with
  | none => none
  | some thread =>
    if thread.aborted && !thread.phase.hasEnded && (!thread.started || thread.phase.isPause) then
      some (world.setPhase id .ended)
    else
      match thread.phase with
      | .ready task => some (world.takeStep id task)
      | .inFlight .. | .ended => none
      | .awaiting [] next =>
        if world.registry = [] then some (world.setPhase id (.ready next))
        else some ({ world with registry := [] }.setPhase id (.awaiting world.registry next))
      | .awaiting (other :: others) next =>
        if world.hasEnded other then some (world.setPhase id (.awaiting others next)) else none

/-- The world after the tool that a thread waits for has ended. Once the run is cancelled a tool
ends without an effect. -/
def land (world : World) (id : Nat) (landing : Landing) : Option World :=
  match world.phase id with
  | .inFlight _ _ next =>
    if world.cancelled then some (world.setPhase id (.ready (next (.error .cancelled))))
    else
      some ({ world with files := landing.effect world.files }.setPhase id
        (.ready (next landing.outcome)))
  | _ => none

/-- What happens next. -/
inductive Choice where
  | turn (id : Nat)
  | land (id : Nat) (landing : Landing)
  | cancel

/-- The world after what happens next; what cannot happen changes nothing. -/
def step (world : World) : Choice → World
  | .turn id => (world.turn id).getD world
  | .land id landing => (world.land id landing).getD world
  | .cancel => { world with cancelled := true }

/-- The world after a sequence of choices. -/
def run (world : World) (choices : List Choice) : World := choices.foldl step world

def events (world : World) : List Event := world.reports.map Report.event

end World

end CompiledViews
