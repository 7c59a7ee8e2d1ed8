import CompiledViews.Proofs.Run.Waiting

/-!
# Programs that use a tracker

A program of a tracker tells how far it is, tracks tasks, and waits for these, be it to finish or
not. The tasks track further ones, and each may panic. In whatever order they run, a wait returns
with all tasks ended that have been tracked by then, each of them run once by a thread of its own,
and with an empty registry; and the program can always go on to its end, so no wait is in vain.
-/

namespace CompiledViews

/-- How a thread tells how far the run is. -/
inductive Update where
  | update (message : Text)
  | advance (message : Text) (count : Nat)
  | skipToEnd (message : Text)

def Update.task (next : Task) : Update → Task
  | update message => .update message next
  | advance message count => .advance message count next
  | skipToEnd message => .skipToEnd message next

/-- What a task that is tracked does. What comes after a panic is not reached. -/
inductive TrackedTask where
  | done
  | panic (unreached : TrackedTask)
  | tell (update : Update) (next : TrackedTask)
  | track (child next : TrackedTask)

def TrackedTask.task : TrackedTask → Task
  | done | panic _ => .done
  | tell update next => update.task next.task
  | track child next => .spawn child.task next.task

/-- What the thread does that a tracker belongs to. To finish is to wait for all tasks; whether all
steps have been reported is looked at after that, and at most logged as a warning. -/
inductive TrackerProgram where
  | done
  | tell (update : Update) (next : TrackerProgram)
  | track (child : TrackedTask) (next : TrackerProgram)
  | waitForTasks (next : TrackerProgram)
  | finish (next : TrackerProgram)

namespace TrackerProgram

def task : TrackerProgram → Task
  | done => .done
  | tell update next => update.task next.task
  | track child next => .spawn child.task next.task
  | waitForTasks next | finish next => .awaitAll next.task

/-- The world in which a program is about to begin. -/
def start (program : TrackerProgram) (steps : Nat) (files : FileTree) : World :=
  .new program.task steps files

end TrackerProgram

theorem Update.usesTracker_task {waits : Prop} {next : Task} (update : Update)
    (uses : next.UsesTracker waits) : (update.task next).UsesTracker waits := by
  cases update <;> exact uses

theorem TrackedTask.usesTracker_task (tracked : TrackedTask) :
    tracked.task.UsesTracker False := by
  induction tracked with
  | done => trivial
  | panic unreached => trivial
  | tell update next ih => exact update.usesTracker_task ih
  | track child next ihChild ih => exact ⟨ihChild, ih⟩

theorem TrackerProgram.usesTracker_task (program : TrackerProgram) :
    program.task.UsesTracker True := by
  induction program with
  | done => trivial
  | tell update next ih => exact update.usesTracker_task ih
  | track child next ih => exact ⟨child.usesTracker_task, ih⟩
  | waitForTasks next ih => exact ⟨trivial, ih⟩
  | finish next ih => exact ⟨trivial, ih⟩

namespace World

/-- A run whose main thread need wait for no thread: no other goes on, and no handle is registered.
The tasks that have been started are those that the main thread has tracked and their descendants,
and each has been run from its beginning to its end, by one thread. -/
structure Settled (root : Task) (record : List (Nat × Deed)) (world : World) : Prop where
  alone : world.Alone
  registry : world.registry = []
  tracked : (started record).Perm ((starts (own 0 record)).flatMap Task.family)
  length : world.threads.length = (started record).length + 1
  ran : ∀ (id : Nat) (child : Task), (started record)[id]? = some child →
    child.Does (own (id + 1) record)
  main : ∃ rest, root.Does (own 0 record ++ rest)

theorem Tracking.settled {root : Task} {record : List (Nat × Deed)} {world : World}
    (tracking : world.Tracking root record) (alone : world.Alone) (none : world.registry = [])
    {next : Task} (ready : world.phase 0 = .ready next) : world.Settled root record where
  alone := alone
  registry := none
  tracked := tracking.started_perm alone
  length := tracking.courses.length
  ran id child isChild := tracking.does_of_ended isChild (alone (id + 1) (by simp))
  main := by
    have uses := tracking.uses_of_phase ready
    rcases Task.UsesTracker.exists_does uses with ⟨rest, does⟩
    refine ⟨rest, tracking.courses.does 0 root rfl rest ?_⟩
    rw [ready]
    exact does

/-- Whatever has been chosen, a wait that returns leaves the run settled, and the program can go on
to its end. -/
theorem settled_of_wait (program : TrackerProgram) (steps : Nat) (files : FileTree)
    (choices : List Choice) :
    (∀ choice, (0, .wait) ∈ ((program.start steps files).run choices).deeds choice →
      ((program.start steps files).run (choices ++ [choice])).Settled program.task
        ((program.start steps files).record (choices ++ [choice]))) ∧
    ∃ rest, program.task.Does (own 0 ((program.start steps files).record (choices ++ rest))) := by
  have uses := program.usesTracker_task
  constructor
  · intro choice isWait
    rcases resumes_of_wait isWait with ⟨next, waits, none, stepped⟩
    have waiting : ((program.start steps files).run choices).Waiting :=
      waiting_run steps files uses choices
    have alone := waiting.alone (by simp [awaited, waits, none, Phase.others])
    have resumed : (program.start steps files).run (choices ++ [choice]) =
        ((program.start steps files).run choices).setPhase 0 (.ready next) := by
      rw [run_append, ← stepped]
      rfl
    have tracking : ((program.start steps files).run (choices ++ [choice])).Tracking program.task
        ((program.start steps files).record (choices ++ [choice])) :=
      tracking_run steps files uses (choices ++ [choice])
    rw [resumed] at tracking ⊢
    apply tracking.settled
    · exact fun id isFork => (phase_setPhase_of_ne isFork _).trans (alone id isFork)
    · exact none
    · exact phase_setPhase_self (lt_of_phase waits (by simp)) _
  · rcases exists_ended_of_usesTracker steps files uses choices with ⟨rest, ended⟩
    have courses := (tracking_run steps files uses (choices ++ rest)).courses
    have does := courses.does 0 program.task rfl []
    rw [ended, List.append_nil] at does
    exact ⟨rest, does rfl⟩

end World

/-- A program that tracks a task which tracks another one; both panic. -/
def panickyProgram : TrackerProgram :=
  .track (.tell (.advance "Compiled" 1) (.track (.panic .done) (.panic .done))) (.finish .done)

namespace World

/-- While the main thread waits for the first task, that one tracks the second. -/
def panickyChoices : List Choice := [0, 0, 0, 1, 1, 1, 0, 0, 2, 0].map .turn

theorem deeds_panicky : ((panickyProgram.start 1 ⟨.directory [], []⟩).run panickyChoices).deeds
    (.turn 0) = [(0, .wait)] := by
  simp [panickyChoices, panickyProgram, TrackerProgram.start, TrackerProgram.task,
    TrackedTask.task, Update.task, new, Thread.new, run, step, turn, takeStep, setPhase,
    reportStatus, Phase.isPause, Phase.hasEnded, hasEnded, phase, deeds]

theorem settled_of_wait_panicky :
    (0, .wait) ∈
      ((panickyProgram.start 1 ⟨.directory [], []⟩).run panickyChoices).deeds (.turn 0) ∧
    ((panickyProgram.start 1 ⟨.directory [], []⟩).run (panickyChoices ++ [Choice.turn 0])).Settled
      panickyProgram.task
      ((panickyProgram.start 1 ⟨.directory [], []⟩).record
        (panickyChoices ++ [Choice.turn 0])) := by
  have isWait : (0, .wait) ∈
      ((panickyProgram.start 1 ⟨.directory [], []⟩).run panickyChoices).deeds (.turn 0) := by
    rw [deeds_panicky]
    exact List.mem_singleton_self _
  have settled := settled_of_wait panickyProgram 1 ⟨.directory [], []⟩ panickyChoices
  exact ⟨isWait, settled.1 (.turn 0) isWait⟩

end World

end CompiledViews
