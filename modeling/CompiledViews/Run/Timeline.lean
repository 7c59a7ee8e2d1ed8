import CompiledViews.Run.World

/-!
# Timelines

A run in which every tool takes a known time and everything else takes none. Threads other than the
main one take their turns while that one waits, first come first served, each until it waits
itself.
-/

namespace CompiledViews

namespace World

/-- The threads besides the main one that can take a turn, in order. -/
def idle (world : World) : List Nat :=
  ((List.range world.threads.length).drop 1).filter fun id => (world.turn id).isSome

/-- The threads besides the main one that wait for a thread in the first place. -/
def waitingFor (world : World) (id : Nat) : List Nat :=
  ((List.range world.threads.length).drop 1).filter fun other =>
    match world.phase other with
    | .awaiting (first :: _) _ => first == id
    | _ => false

/-- The threads to be queued after a turn of a thread: those that it spawned, and if it has ended
those that waited for it. -/
def awakened (before after : World) (id : Nat) : List Nat :=
  (List.range after.threads.length).drop before.threads.length ++
    (if after.hasEnded id then after.waitingFor id else [])

/-- The world after the turns that threads can take before time goes on: the active thread until it
waits, then those in the queue, and the main thread whenever the queue is empty. The run rests
when the main thread is at its end. -/
def settleFrom : (limit : Nat) → World → (active : Nat) → (queue : List Nat) → World
  | 0, world, _, _ => world
  | limit + 1, world, active, queue =>
    match world.turn active with
    | some next => settleFrom limit next active (queue ++ awakened world next active)
    | none =>
      if world.hasEnded 0 then world
      else
        match queue with
        | id :: rest => settleFrom limit world id rest
        | [] => if active = 0 then world else settleFrom limit world 0 []

/-- How many turns may come at one instant. -/
def maxTurns : Nat := 100000

/-- The world after the turns that threads can take before time goes on. -/
def settle (world : World) : World := settleFrom maxTurns world 0 world.idle

end World

/-- What a tool does and how long that takes. -/
structure ToolScript where
  delay : Nat
  landing : Landing

/-- What the tools do that are started by a command while the files are as they are. -/
abbrev Tools := FileTree → Tool → Command → ToolScript

/-- A world in time: when it is, when the tools that are running end, and when the run is cancelled
if that is still to come. -/
structure Timeline where
  world : World
  now : Nat
  ends : List (Nat × Nat × Landing)
  cancelAt : Option Nat

namespace Timeline

/-- The timeline with the end of every tool that has been started at this instant. -/
def schedule (tools : Tools) (timeline : Timeline) : Timeline :=
  let world := timeline.world
  let started := (List.range world.threads.length).filterMap fun id =>
    match world.phase id with
    | .inFlight tool command _ =>
      if timeline.ends.any fun entry => entry.1 == id then none
      else
        let script := tools world.files tool command
        some (id, timeline.now + script.delay, script.landing)
    | _ => none
  { timeline with ends := timeline.ends ++ started }

def firstEnd? (timeline : Timeline) : Option (Nat × Nat × Landing) :=
  timeline.ends.foldl (fun first entry =>
    match first with
    | none => some entry
    | some other => if entry.2.1 < other.2.1 then some entry else first) none

/-- The timeline when the run is cancelled, which ends every running tool. -/
def cancel (timeline : Timeline) (time : Nat) : Timeline :=
  let cancelled := timeline.world.step .cancel
  let ended :=
    timeline.ends.foldl (fun world entry => world.step (.land entry.1 entry.2.2)) cancelled
  ⟨ended.settle, time, [], none⟩

/-- The timeline when a tool ends. -/
def land (timeline : Timeline) (id time : Nat) (landing : Landing) : Timeline :=
  { timeline with
    world := (timeline.world.step (.land id landing)).settle
    now := time
    ends := timeline.ends.filter fun entry => entry.1 != id }

/-- The timeline after what happens next, if anything does. -/
def advance? (tools : Tools) (timeline : Timeline) : Option Timeline :=
  match timeline.firstEnd? with
  | none => none
  | some (id, time, landing) =>
    let next :=
      match timeline.cancelAt with
      | some instant =>
        if instant < time then timeline.cancel instant else timeline.land id time landing
      | none => timeline.land id time landing
    some (next.schedule tools)

/-- The timeline after all that happens, at most `limit` things. -/
def advanceAll (tools : Tools) : (limit : Nat) → Timeline → Timeline
  | 0, timeline => timeline
  | limit + 1, timeline =>
    match timeline.advance? tools with
    | some next => advanceAll tools limit next
    | none => timeline

/-- How many tools may end in one run. -/
def maxLandings : Nat := 1000

/-- The world at the end of a run that starts in a world. -/
def finish (tools : Tools) (cancelAt : Option Nat) (world : World) : World :=
  let ready := if cancelAt = some 0 then world.step .cancel else world
  let start : Timeline :=
    ⟨ready.settle, 0, [], if cancelAt = some 0 then none else cancelAt⟩
  (advanceAll tools maxLandings (start.schedule tools)).world

end Timeline

end CompiledViews
