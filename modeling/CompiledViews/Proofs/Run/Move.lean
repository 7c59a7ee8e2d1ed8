import CompiledViews.Run.World
import Mathlib.Data.List.Induction

/-!
# Moves of a world

Whatever is chosen to happen next, a world makes one of a few moves: it stays as it is, it is
cancelled, a thread takes a step or stops, a thread that waits for others gets on, or a tool ends. A
move changes the phase of one thread at most, and may add a thread at the end of the list.

Along with a run the tools that exit are kept, each with what it leaves behind: the worlds
themselves do not remember these.
-/

namespace CompiledViews

/-- The phase of a thread after a step in a world. -/
def Task.after (world : World) : Task → Phase
  | done => .ended
  | update _ next | advance _ _ next | skipToEnd _ next | log _ _ next | deliver _ _ next
  | spawn _ next | abortAll next | pause next => .ready next
  | awaitAll next => .awaiting [] next
  | askCancelled next => .ready (next world.cancelled)
  | call tool command next =>
    if world.cancelled then .ready (next (.error .cancelled)) else .inFlight tool command next
  | change action next => .ready (next (world.change action).2)
  | look next => .ready (next world.files)

theorem Task.after_call (world : World) (tool : Tool) (command : Command)
    (next : Outcome → Task) : (call tool command next).after world =
      if world.cancelled then .ready (next (.error .cancelled))
      else .inFlight tool command next := rfl

/-- What a step of a thread reports in a world. -/
def Task.reported (world : World) : Task → List Report
  | update message _ => [.status message world.progress]
  | advance message count _ => [.status message (world.progress.advance count)]
  | skipToEnd message _ => [.status message world.progress.skipToEnd]
  | log text isError _ => [.log text isError]
  | deliver view content _ =>
    if world.delivered.contains view then [] else [.content view content]
  | _ => []

/-- Contents are reported by a step that delivers them. -/
theorem Task.deliver_of_reported {world : World} {task : Task} {view : View} {content : Content}
    (isReported : .content view content ∈ task.reported world) :
    ∃ next, task = .deliver view content next := by
  cases task with
  | deliver shown delivered next =>
      simp only [reported, List.mem_ite_nil_left, List.mem_singleton] at isReported
      rcases isReported with ⟨_, same⟩
      injection same with sameView sameContent
      exact ⟨next, by rw [sameView, sameContent]⟩
  | _ => simp [reported] at isReported

/-- The views that a step of a thread gives contents to in a world. -/
def Task.delivers (world : World) : Task → List View
  | deliver view _ _ => if world.delivered.contains view then [] else [view]
  | _ => []

/-- The threads that a step of a thread registers in a world. -/
def Task.spawned (world : World) : Task → List Nat
  | spawn _ _ => [world.threads.length]
  | _ => []

/-- The progress after a step of a thread. -/
def Task.progressed (progress : Progress) : Task → Progress
  | advance _ count _ => progress.advance count
  | skipToEnd _ _ => progress.skipToEnd
  | _ => progress

namespace World

/-- Whether a thread is to stop. -/
def aborted (world : World) (id : Nat) : Bool :=
  (world.threads[id]?.map (·.aborted)).getD false

/-- A tool that exits by a choice, with what it leaves behind. -/
def exit? (world : World) : Choice → Option (Tool × ToolResult)
  | .land id landing =>
    match world.phase id, world.cancelled, landing.outcome with
    | .inFlight tool _ _, false, .ok result => some (tool, result)
    | _, _, _ => none
  | .turn _ | .cancel => none

/-- The tools that exit while choices are made from a world on, with what they leave behind. -/
def exits : World → List Choice → List (Tool × ToolResult)
  | _, [] => []
  | world, choice :: choices => (world.exit? choice).toList ++ exits (world.step choice) choices

/-- What a choice may do to a world, with the tools that exit by it. -/
inductive Move (world : World) : List (Tool × ToolResult) → World → Prop where
  | rest : Move world [] world
  | cancel : Move world [] { world with cancelled := true }
  | stop {id : Nat} (aborted : world.aborted id = true) (goesOn : world.phase id ≠ .ended) :
      Move world [] (world.setPhase id .ended)
  | act {id : Nat} {task : Task} (ready : world.phase id = .ready task) :
      Move world [] (world.takeStep id task)
  | collect {id : Nat} {next : Task} (waits : world.phase id = .awaiting [] next) :
      Move world [] ({ world with registry := [] }.setPhase id (.awaiting world.registry next))
  | resume {id : Nat} {next : Task} (waits : world.phase id = .awaiting [] next)
      (none : world.registry = []) : Move world [] (world.setPhase id (.ready next))
  | skip {id other : Nat} {others : List Nat} {next : Task}
      (waits : world.phase id = .awaiting (other :: others) next)
      (ended : world.hasEnded other = true) :
      Move world [] (world.setPhase id (.awaiting others next))
  | fail {id : Nat} {tool : Tool} {command : Command} {next : Outcome → Task}
      (flies : world.phase id = .inFlight tool command next) (error : ToolError)
      (files : FileTree) :
      Move world [] ({ world with files }.setPhase id (.ready (next (.error error))))
  | exit {id : Nat} {tool : Tool} {command : Command} {next : Outcome → Task}
      (flies : world.phase id = .inFlight tool command next) (result : ToolResult)
      (files : FileTree) (uncancelled : world.cancelled = false) :
      Move world [(tool, result)] ({ world with files }.setPhase id (.ready (next (.ok result))))

section phases

variable {world : World} {id other : Nat}

theorem hasEnded_iff : world.hasEnded id = true ↔ world.phase id = .ended := by
  unfold hasEnded
  cases world.phase id <;> simp [Phase.hasEnded]

theorem exists_of_phase {phase : Phase} (isPhase : world.phase id = phase)
    (goesOn : phase ≠ .ended) : ∃ thread, world.threads[id]? = some thread ∧
      thread.phase = phase := by
  unfold World.phase at isPhase
  cases found : world.threads[id]? with
  | none => simp [found, goesOn.symm] at isPhase
  | some thread => exact ⟨thread, rfl, by simpa [found] using isPhase⟩

theorem lt_of_phase {phase : Phase} (isPhase : world.phase id = phase)
    (goesOn : phase ≠ .ended) : id < world.threads.length := by
  rcases exists_of_phase isPhase goesOn with ⟨_, found, _⟩
  exact (List.getElem?_eq_some_iff.1 found).1

theorem phase_of_threads {after : World} (threads : after.threads[other]? = world.threads[other]?) :
    after.phase other = world.phase other := by
  simp [phase, threads]

theorem getElem?_setPhase (world : World) (id : Nat) (phase : Phase) (other : Nat) :
    (world.setPhase id phase).threads[other]? = world.threads[other]?.map fun thread =>
      if id = other then { thread with phase, started := true } else thread := by
  simp only [setPhase, List.getElem?_modify]
  by_cases same : id = other <;> simp [same]

theorem phase_setPhase_self (exists_ : id < world.threads.length) (phase : Phase) :
    (world.setPhase id phase).phase id = phase := by
  simp [World.phase, getElem?_setPhase, List.getElem?_eq_getElem exists_]

theorem phase_setPhase_of_ne (different : other ≠ id) (phase : Phase) :
    (world.setPhase id phase).phase other = world.phase other := by
  apply phase_of_threads
  simp [getElem?_setPhase, different.symm]

@[simp]
theorem phase_abortAll : world.abortAll.phase other = world.phase other := by
  simp only [phase, abortAll, List.getElem?_mapIdx]
  cases world.threads[other]? with
  | none => rfl
  | some thread => dsimp only [Option.map_some]; split <;> rfl

@[simp]
theorem threads_deliver (world : World) (view : View) (content : Content) :
    (world.deliver view content).threads = world.threads := by
  unfold deliver
  split <;> rfl

@[simp]
theorem threads_change (world : World) (action : FileAction Unit) :
    (world.change action).1.threads = world.threads := by
  unfold change
  split <;> rfl

@[simp]
theorem length_abortAll (world : World) :
    world.abortAll.threads.length = world.threads.length := by
  simp [abortAll]

@[simp]
theorem length_setPhase (world : World) (id : Nat) (phase : Phase) :
    (world.setPhase id phase).threads.length = world.threads.length := by
  simp [setPhase]

theorem phase_takeStep_self (exists_ : id < world.threads.length) (task : Task) :
    (world.takeStep id task).phase id = task.after world := by
  cases task with
  | call tool command next =>
      unfold takeStep Task.after
      by_cases cancelled : world.cancelled <;> simp [cancelled, phase_setPhase_self, exists_]
  | spawn child next =>
      have inside : id < (world.setPhase id (.ready next)).threads.length := by simpa using exists_
      refine (phase_of_threads ?_).trans (phase_setPhase_self exists_ (.ready next))
      simp [takeStep, List.getElem?_append_left inside]
  | _ => simp [takeStep, Task.after, phase_setPhase_self, exists_, reportStatus, report]

/-- A step changes the phase of its thread and may add a thread. -/
theorem phase_takeStep (exists_ : id < world.threads.length) (task : Task) (other : Nat) :
    other ≠ id ∧ (world.takeStep id task).phase other = world.phase other ∨
      other = id ∧ (world.takeStep id task).phase other = task.after world ∨
      other = world.threads.length ∧ ∃ child next, task = .spawn child next ∧
        (world.takeStep id task).phase other = .ready child := by
  by_cases same : other = id
  · exact .inr (.inl ⟨same, same ▸ phase_takeStep_self exists_ task⟩)
  · cases task with
    | spawn child next =>
        by_cases isNew : other = world.threads.length
        · refine .inr (.inr ⟨isNew, child, next, rfl, ?_⟩)
          simp [phase, takeStep, isNew, Thread.new]
        · refine .inl ⟨same, (phase_of_threads ?_).trans (phase_setPhase_of_ne same (.ready next))⟩
          simp only [takeStep, List.getElem?_append, length_setPhase]
          split
          · rfl
          · rw [List.getElem?_eq_none (by simpa using by omega),
              List.getElem?_eq_none (by simpa using by omega)]
    | call tool command next =>
        refine .inl ⟨same, ?_⟩
        unfold takeStep
        dsimp only
        split <;> exact phase_setPhase_of_ne same _
    | abortAll next =>
        exact .inl ⟨same, by simp [takeStep, phase_setPhase_of_ne same]⟩
    | deliver view content next =>
        exact .inl ⟨same, (phase_setPhase_of_ne same _).trans (phase_of_threads (by simp))⟩
    | change action next =>
        refine .inl ⟨same, ?_⟩
        simp only [takeStep, phase_setPhase_of_ne same]
        exact phase_of_threads (by simp)
    | _ => exact .inl ⟨same, phase_setPhase_of_ne same _⟩

@[simp]
theorem aborted_setPhase (world : World) (id : Nat) (phase : Phase) (other : Nat) :
    (world.setPhase id phase).aborted other = world.aborted other := by
  simp only [aborted, getElem?_setPhase, Option.map_map]
  cases world.threads[other]? with
  | none => rfl
  | some thread => by_cases same : id = other <;> simp [same]

/-- A thread is to stop only if it was to stop before, or is registered when threads are told to
stop. -/
theorem aborted_takeStep {task : Task} (isAborted : (world.takeStep id task).aborted other = true) :
    world.aborted other = true ∨ (∃ next, task = .abortAll next) ∧ other ∈ world.registry := by
  cases task with
  | abortAll next =>
      simp only [takeStep, aborted_setPhase] at isAborted
      simp only [aborted, abortAll, List.getElem?_mapIdx] at isAborted ⊢
      cases found : world.threads[other]? with
      | none => simp [found] at isAborted
      | some thread =>
          by_cases registered : other ∈ world.registry
          · exact .inr ⟨⟨next, rfl⟩, registered⟩
          · exact .inl (by simpa [found, registered] using isAborted)
  | spawn child next =>
      refine .inl ((aborted_setPhase world id (.ready next) other).symm.trans ?_)
      simp only [takeStep, aborted, List.getElem?_append] at isAborted ⊢
      split at isAborted
      · exact isAborted
      · rw [List.getElem?_singleton] at isAborted
        split at isAborted <;> simp [Thread.new] at isAborted
  | call tool command next =>
      unfold takeStep at isAborted
      dsimp only at isAborted
      split at isAborted <;> exact .inl ((aborted_setPhase ..).symm.trans isAborted)
  | deliver view content next =>
      simp only [takeStep, aborted_setPhase] at isAborted
      exact .inl (by simpa [aborted] using isAborted)
  | change action next =>
      simp only [takeStep, aborted_setPhase] at isAborted
      exact .inl (by simpa [aborted] using isAborted)
  | _ => exact .inl ((aborted_setPhase ..).symm.trans isAborted)

end phases

/-- What a step of a thread does to what the threads share, the files apart. -/
theorem takeStep_shared (world : World) (id : Nat) (task : Task) :
    (world.takeStep id task).reports = world.reports ++ task.reported world ∧
      (world.takeStep id task).delivered = task.delivers world ++ world.delivered ∧
      (world.takeStep id task).registry = world.registry ++ task.spawned world ∧
      (world.takeStep id task).threads.length =
        world.threads.length + (task.spawned world).length ∧
      (world.takeStep id task).progress = task.progressed world.progress ∧
      (world.takeStep id task).cancelled = world.cancelled := by
  cases task with
  | deliver view content next =>
      simp only [takeStep, deliver, Task.reported, Task.delivers]
      split <;> simp [setPhase, Task.spawned, Task.progressed]
  | call tool command next =>
      unfold takeStep
      dsimp only
      split <;> simp [setPhase, Task.reported, Task.delivers, Task.spawned, Task.progressed]
  | change action next =>
      simp only [takeStep, change]
      split <;> simp [setPhase, Task.reported, Task.delivers, Task.spawned, Task.progressed]
  | _ =>
      simp [takeStep, setPhase, Task.reported, Task.delivers, Task.spawned, Task.progressed,
        reportStatus, report, abortAll]

theorem reports_takeStep (world : World) (id : Nat) (task : Task) :
    (world.takeStep id task).reports = world.reports ++ task.reported world :=
  (takeStep_shared world id task).1

theorem delivered_takeStep (world : World) (id : Nat) (task : Task) :
    (world.takeStep id task).delivered = task.delivers world ++ world.delivered :=
  (takeStep_shared world id task).2.1

theorem registry_takeStep (world : World) (id : Nat) (task : Task) :
    (world.takeStep id task).registry = world.registry ++ task.spawned world :=
  (takeStep_shared world id task).2.2.1

theorem progress_takeStep (world : World) (id : Nat) (task : Task) :
    (world.takeStep id task).progress = task.progressed world.progress :=
  (takeStep_shared world id task).2.2.2.2.1

theorem cancelled_takeStep (world : World) (id : Nat) (task : Task) :
    (world.takeStep id task).cancelled = world.cancelled :=
  (takeStep_shared world id task).2.2.2.2.2

theorem length_takeStep (world : World) (id : Nat) (task : Task) :
    (world.takeStep id task).threads.length =
      world.threads.length + (task.spawned world).length :=
  (takeStep_shared world id task).2.2.2.1

/-- What a choice does is a move. -/
theorem move_step (world : World) (choice : Choice) :
    world.Move (world.exit? choice).toList (world.step choice) := by
  cases choice with
  | cancel => exact .cancel
  | turn id =>
      change world.Move [] ((world.turn id).getD world)
      unfold turn
      cases found : world.threads[id]? with
      | none => exact .rest
      | some thread =>
          have isPhase : world.phase id = thread.phase := by simp [phase, found]
          dsimp only
          split
          case isTrue stops =>
            simp only [Bool.and_eq_true] at stops
            rcases stops with ⟨⟨aborted, goesOn⟩, _⟩
            refine .stop (by simp [World.aborted, found, aborted]) fun ended => ?_
            simp [isPhase.symm.trans ended, Phase.hasEnded] at goesOn
          case isFalse _ =>
            split
            case h_1 task ready => exact .act (isPhase.trans ready)
            case h_2 => exact .rest
            case h_3 => exact .rest
            case h_4 next waits =>
              split
              case isTrue none => exact .resume (isPhase.trans waits) none
              case isFalse _ => exact .collect (isPhase.trans waits)
            case h_5 other others next waits =>
              split
              case isTrue ended => exact .skip (isPhase.trans waits) ended
              case isFalse _ => exact .rest
  | land id landing =>
      simp only [step, land, exit?]
      cases flies : world.phase id with
      | inFlight tool command next =>
          cases cancelled : world.cancelled with
          | true => exact .fail flies .cancelled world.files
          | false =>
              cases outcome : landing.outcome with
              | error error =>
                  have move := Move.fail flies error (landing.effect world.files)
                  rwa [cancelled] at move
              | ok result =>
                  have move := Move.exit flies result (landing.effect world.files) cancelled
                  rwa [cancelled] at move
      | _ => exact .rest

/-- Only the choice to cancel cancels a run. -/
theorem cancelled_step (world : World) {choice : Choice} (isOther : choice ≠ .cancel) :
    (world.step choice).cancelled = world.cancelled := by
  cases choice with
  | cancel => exact absurd rfl isOther
  | turn id =>
      simp only [step, turn]
      cases world.threads[id]? with
      | none => rfl
      | some thread =>
          dsimp only
          split
          · rfl
          · split
            · exact cancelled_takeStep ..
            · rfl
            · rfl
            · split <;> rfl
            · split <;> rfl
  | land id landing =>
      simp only [step, land]
      split
      · split <;> rfl
      · rfl

theorem cancelled_run (world : World) {choices : List Choice} (never : Choice.cancel ∉ choices) :
    (world.run choices).cancelled = world.cancelled := by
  induction choices generalizing world with
  | nil => rfl
  | cons choice choices ih =>
      have isOther : choice ≠ .cancel := Ne.symm (List.ne_of_not_mem_cons never)
      have later : Choice.cancel ∉ choices := List.not_mem_of_not_mem_cons never
      exact (ih (world.step choice) later).trans (world.cancelled_step isOther)

/-- A run that is cancelled stays so. -/
theorem Move.uncancelled {world after : World} {new : List (Tool × ToolResult)}
    (move : world.Move new after) (stays : after.cancelled = false) : world.cancelled = false := by
  cases move with
  | cancel => cases stays
  | act ready => rwa [cancelled_takeStep] at stays
  | _ => exact stays

/-- What holds of a world before anything has exited, and is kept by every move, holds after every
run of the world and the tools that exit in it. -/
theorem holds_of_moves (property : World → List (Tool × ToolResult) → Prop) {start : World}
    (initial : property start [])
    (kept : ∀ {world after earlier new}, world.Move new after → property world earlier →
      property after (earlier ++ new))
    (choices : List Choice) : property (start.run choices) (start.exits choices) := by
  suffices ∀ (world : World) (earlier : List (Tool × ToolResult)), property world earlier →
      property (world.run choices) (earlier ++ world.exits choices) by
    simpa using this start [] initial
  induction choices with
  | nil => exact fun world earlier holds => by simpa [exits, run] using holds
  | cons choice choices ih =>
      intro world earlier holds
      have later := ih (world.step choice) _ (kept (world.move_step choice) holds)
      simpa [exits, run, List.append_assoc] using later

end World

/-- A property that holds of what a thread has to do, in view of the tools that have exited. A tool
that is running has still to be waited for. -/
def Phase.KeepsTo (holds : List (Tool × ToolResult) → Task → Prop)
    (exits : List (Tool × ToolResult)) : Phase → Prop
  | ready task | awaiting _ task => holds exits task
  | inFlight tool command next => holds exits (.call tool command next)
  | ended => True

/-- A property of tasks that passes from each task to what comes after its step, as long as worlds
are as given, and to the threads that it starts. -/
structure Inherited (given : World → Prop) (holds : List (Tool × ToolResult) → Task → Prop) :
    Prop where
  mono {earlier later : List (Tool × ToolResult)} {task : Task} (known : holds earlier task)
    (more : ∀ exit ∈ earlier, exit ∈ later) : holds later task
  after {exits : List (Tool × ToolResult)} {task : Task} (world : World) (isGiven : given world)
    (known : holds exits task) : (task.after world).KeepsTo holds exits
  child {exits : List (Tool × ToolResult)} {child next : Task}
    (known : holds exits (.spawn child next)) : holds exits child
  error {exits : List (Tool × ToolResult)} {tool : Tool} {command : Command}
    {next : Outcome → Task} (known : holds exits (.call tool command next)) (error : ToolError) :
    holds exits (next (.error error))
  result {exits : List (Tool × ToolResult)} {tool : Tool} {command : Command}
    {next : Outcome → Task} (known : holds exits (.call tool command next))
    (result : ToolResult) : holds (exits ++ [(tool, result)]) (next (.ok result))

namespace Inherited

variable {given : World → Prop} {holds : List (Tool × ToolResult) → Task → Prop}
  {world after : World} {exits new : List (Tool × ToolResult)}

theorem keepsTo_append (inherited : Inherited given holds) {phase : Phase}
    (keeps : phase.KeepsTo holds exits) (new : List (Tool × ToolResult)) :
    phase.KeepsTo holds (exits ++ new) := by
  cases phase with
  | ended => trivial
  | _ => exact inherited.mono keeps fun _ => List.mem_append_left new

/-- If all threads keep to an inherited property, they do so after every move. -/
theorem move (inherited : Inherited given holds) (isGiven : given world)
    (keeps : ∀ id, (world.phase id).KeepsTo holds exits) (move : world.Move new after) :
    ∀ id, (after.phase id).KeepsTo holds (exits ++ new) := by
  have changed {world : World} {exits : List (Tool × ToolResult)} {id : Nat} {phase : Phase}
      (keeps : ∀ id, (world.phase id).KeepsTo holds exits) (exists_ : id < world.threads.length)
      (changed : phase.KeepsTo holds exits) :
      ∀ other, ((world.setPhase id phase).phase other).KeepsTo holds exits := by
    intro other
    by_cases same : other = id
    · rw [same, World.phase_setPhase_self exists_]
      exact changed
    · rw [World.phase_setPhase_of_ne same]
      exact keeps other
  have known {id : Nat} {phase : Phase} (isPhase : world.phase id = phase) :
      phase.KeepsTo holds exits := isPhase ▸ keeps id
  cases move with
  | rest => simpa using keeps
  | cancel =>
      rw [List.append_nil]
      exact keeps
  | stop aborted goesOn =>
      rw [List.append_nil]
      exact changed keeps (World.lt_of_phase rfl goesOn) trivial
  | @act id task ready =>
      rw [List.append_nil]
      intro other
      have exists_ := World.lt_of_phase ready (by simp)
      rcases World.phase_takeStep exists_ task other with
        ⟨_, same⟩ | ⟨_, stepped⟩ | ⟨_, child, next, rfl, born⟩
      · exact same ▸ keeps other
      · exact stepped ▸ inherited.after world isGiven (known ready)
      · exact born ▸ inherited.child (known ready)
  | collect waits =>
      have held := known waits
      rw [List.append_nil]
      exact changed keeps (World.lt_of_phase waits (by simp)) held
  | resume waits none =>
      have held := known waits
      rw [List.append_nil]
      exact changed keeps (World.lt_of_phase waits (by simp)) held
  | skip waits ended =>
      have held := known waits
      rw [List.append_nil]
      exact changed keeps (World.lt_of_phase waits (by simp)) held
  | fail flies error files =>
      rw [List.append_nil]
      exact changed keeps (World.lt_of_phase flies (by simp)) (inherited.error (known flies) error)
  | @exit id tool command next flies result files uncancelled =>
      have keeps_later (id : Nat) := inherited.keepsTo_append (keeps id) [(tool, result)]
      exact changed keeps_later (World.lt_of_phase flies (by simp))
        (inherited.result (known flies) result)

end Inherited

end CompiledViews
