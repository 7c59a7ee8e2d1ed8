import CompiledViews.Proofs.Run.Tracker

/-!
# Stopping tracked threads

Whatever the threads of a run do, a thread that stops the others reaches those whose handles the
registry holds, and no others. A wait takes the handles out of the registry for as long as it goes
on, so what has been tracked before such a wait is spared by a call that is made during it. A thread
that is reached before its first step never takes one.
-/

namespace CompiledViews.World

/-- The thread whose turn it is by a choice, with its phase, unless it stops instead. -/
def acting? (world : World) : Choice → Option (Nat × Phase)
  | .turn id =>
    match world.threads[id]? with
    | none => none
    | some thread =>
      if thread.aborted && !thread.phase.hasEnded && (!thread.started || thread.phase.isPause) then
        none
      else some (id, thread.phase)
  | .land _ _ | .cancel => none

/-- The operation that a choice lets a thread perform, with the thread. -/
def operation? (world : World) (choice : Choice) : Option (Nat × Task) :=
  match world.acting? choice with
  | some (id, .ready task) => some (id, task)
  | _ => none

/-- The operations that are performed while choices are made from a world on. -/
def operations : World → List Choice → List (Nat × Task)
  | _, [] => []
  | world, choice :: choices =>
    (world.operation? choice).toList ++ operations (world.step choice) choices

/-- The handles that a choice lets a wait take from the registry. -/
def collected (world : World) (choice : Choice) : List Nat :=
  match world.acting? choice with
  | some (_, .awaiting [] _) => world.registry
  | _ => []

/-- The handles that waits take from the registry while choices are made from a world on. -/
def taken : World → List Choice → List Nat
  | _, [] => []
  | world, choice :: choices => world.collected choice ++ taken (world.step choice) choices

/-- Every thread but the main one is tracked as it is started. -/
def IsTracked (world : World) (id : Nat) : Prop := 0 < id ∧ id < world.threads.length

/-- Whether a thread has taken a turn. -/
def hasStarted (world : World) (id : Nat) : Bool :=
  (world.threads[id]?.map (·.started)).getD false

/-- A thread performs nothing, whatever comes next. -/
def NeverActs (world : World) (id : Nat) : Prop :=
  ∀ choices, ∀ operation ∈ world.operations choices, operation.1 ≠ id

variable {world : World} {thread : Thread} {id actor : Nat} {choice : Choice} {task : Task}
  {phase : Phase}

/-- A thread acts only when it is its turn, and goes on from its phase. -/
theorem turn_of_acting (acts : world.acting? choice = some (actor, phase)) :
    choice = .turn actor ∧ world.phase actor = phase := by
  cases choice with
  | land => cases acts
  | cancel => cases acts
  | turn id =>
      simp only [acting?] at acts
      cases found : world.threads[id]? with
      | none => simp [found] at acts
      | some thread =>
          simp only [found, Option.ite_none_left_eq_some, Option.some.injEq, Prod.mk.injEq] at acts
          rcases acts with ⟨_, rfl, rfl⟩
          exact ⟨rfl, by simp [World.phase, found]⟩

/-- What comes of a turn: the thread stops, or it takes its step or goes on waiting. -/
theorem step_turn (found : world.threads[id]? = some thread) :
    (world.step (.turn id) = world.setPhase id .ended ∧ world.acting? (.turn id) = none) ∨
      ((thread.aborted && !thread.started && !thread.phase.hasEnded) = false ∧
        world.acting? (.turn id) = some (id, thread.phase) ∧
        world.step (.turn id) =
          match thread.phase with
          | .ready task => world.takeStep id task
          | .awaiting [] next =>
            if world.registry = [] then world.setPhase id (.ready next)
            else { world with registry := [] }.setPhase id (.awaiting world.registry next)
          | .awaiting (other :: others) next =>
            if world.hasEnded other then world.setPhase id (.awaiting others next) else world
          | .inFlight .. | .ended => world) := by
  simp only [step, turn, acting?, found]
  by_cases stops : thread.aborted && !thread.phase.hasEnded &&
      (!thread.started || thread.phase.isPause)
  · exact .inl (by simp [stops])
  · refine .inr ⟨?_, by rw [if_neg stops], ?_⟩
    · revert stops
      cases thread.aborted <;> cases thread.started <;> cases thread.phase.hasEnded <;> simp
    · rw [if_neg stops]
      cases thread.phase with
      | awaiting others next =>
          cases others with
          | nil => dsimp only; split <;> rfl
          | cons other others => dsimp only; split <;> rfl
      | _ => rfl

/-- An operation is that of the thread whose turn it is, and this one takes the step. -/
theorem step_of_operation {operation : Nat × Task}
    (performs : world.operation? choice = some operation) :
    choice = .turn operation.1 ∧ world.phase operation.1 = .ready operation.2 ∧
      world.step choice = world.takeStep operation.1 operation.2 := by
  simp only [operation?] at performs
  split at performs
  case h_2 => cases performs
  case h_1 actor task acts =>
    rcases Option.some.inj performs with rfl
    rcases turn_of_acting acts with ⟨rfl, isPhase⟩
    rcases exists_of_phase isPhase (by simp) with ⟨thread, found, same⟩
    refine ⟨rfl, isPhase, ?_⟩
    rcases step_turn found with ⟨_, stops⟩ | ⟨_, _, stepped⟩
    · simp [stops] at acts
    · rw [stepped, same]

/-- A step leaves the other threads as they are, but for those that it stops. -/
theorem getElem?_takeStep_of_ne (different : id ≠ actor)
    (found : world.threads[id]? = some thread) (task : Task) :
    ∃ stops : Bool, (world.takeStep actor task).threads[id]? =
      some { thread with aborted := thread.aborted || stops } := by
  have inside := (List.getElem?_eq_some_iff.1 found).1
  have kept {changed : World} (phase : Phase) (threads : changed.threads = world.threads) :
      ∃ stops : Bool, (changed.setPhase actor phase).threads[id]? =
        some { thread with aborted := thread.aborted || stops } :=
    ⟨false, by simp [getElem?_setPhase, threads, found, different.symm]⟩
  cases task with
  | abortAll next =>
      refine ⟨world.registry.contains id, ?_⟩
      simp only [takeStep, getElem?_setPhase, abortAll, List.getElem?_mapIdx, found]
      by_cases registered : id ∈ world.registry <;> simp [registered, different.symm]
  | spawn child next =>
      have stays : (world.takeStep actor (.spawn child next)).threads[id]? =
          (world.setPhase actor (.ready next)).threads[id]? := by
        simp [takeStep, List.getElem?_append_left, inside]
      rw [stays]
      exact kept _ rfl
  | call tool command next =>
      unfold takeStep
      dsimp only
      split <;> exact kept _ rfl
  | deliver view content next => exact kept _ (by simp)
  | change action next => exact kept _ (threads_change world action)
  | _ => exact kept _ rfl

/-- A thread that waits for no tool stays as it is until its turn, but may be stopped. -/
theorem getElem?_step_of_ne (found : world.threads[id]? = some thread)
    (notFlying : ∀ tool command next, thread.phase ≠ .inFlight tool command next)
    (different : choice ≠ .turn id) :
    ∃ stops : Bool, (world.step choice).threads[id]? =
      some { thread with aborted := thread.aborted || stops } := by
  have stays : ∃ stops : Bool, world.threads[id]? =
      some { thread with aborted := thread.aborted || stops } := ⟨false, by simp [found]⟩
  have kept {changed : World} {actor : Nat} (isOther : actor ≠ id) (phase : Phase)
      (threads : changed.threads = world.threads) :
      ∃ stops : Bool, (changed.setPhase actor phase).threads[id]? =
        some { thread with aborted := thread.aborted || stops } :=
    ⟨false, by simp [getElem?_setPhase, threads, found, isOther]⟩
  cases choice with
  | cancel => exact stays
  | land actor landing =>
      simp only [step, land]
      cases flies : world.phase actor with
      | inFlight tool command next =>
          have isOther : actor ≠ id := by
            rintro rfl
            simp only [World.phase, found] at flies
            exact notFlying tool command next flies
          dsimp only
          split <;> exact kept isOther _ rfl
      | _ => exact stays
  | turn actor =>
      have isOther : actor ≠ id := fun same => different (by rw [same])
      cases acting : world.threads[actor]? with
      | none => simpa [step, turn, acting] using stays
      | some other =>
          rcases step_turn acting with ⟨stepped, _⟩ | ⟨_, _, stepped⟩
          · rw [stepped]
            exact kept isOther _ rfl
          · rw [stepped]
            cases other.phase with
            | ready task => exact getElem?_takeStep_of_ne isOther.symm found task
            | awaiting others next =>
                cases others with
                | nil => dsimp only; split <;> exact kept isOther _ rfl
                | cons first others =>
                    dsimp only
                    split
                    · exact kept isOther _ rfl
                    · exact stays
            | _ => exact stays

/-- A thread that never acts again: it has ended, or it is to stop and has not taken a turn. -/
def IsStopped (world : World) (id : Nat) : Prop :=
  ∃ thread, world.threads[id]? = some thread ∧
    (thread.phase = .ended ∨ ∃ task, thread = ⟨.ready task, false, true⟩)

/-- Whatever is chosen, a stopped thread stays so, and performs nothing. -/
theorem IsStopped.step (stopped : world.IsStopped id) (choice : Choice) :
    (world.step choice).IsStopped id ∧ ∀ operation ∈ world.operation? choice, operation.1 ≠ id := by
  rcases stopped with ⟨thread, found, state⟩
  have isPhase : world.phase id = thread.phase := by simp [World.phase, found]
  have notFlying : ∀ tool command next, thread.phase ≠ .inFlight tool command next := by
    rcases state with ended | ⟨task, rfl⟩ <;> simp_all
  by_cases own : choice = .turn id
  · subst own
    rcases step_turn found with ⟨stepped, stops⟩ | ⟨goesOn, acts, stepped⟩
    · refine ⟨⟨{ thread with phase := .ended, started := true }, ?_, .inl rfl⟩, ?_⟩
      · simp [stepped, getElem?_setPhase, found]
      · simp [operation?, stops]
    · rcases state with ended | ⟨task, rfl⟩
      · rw [stepped, ended]
        exact ⟨⟨thread, found, .inl ended⟩, by simp [operation?, acts, ended]⟩
      · cases goesOn
  · constructor
    · rcases getElem?_step_of_ne found notFlying own with ⟨stops, later⟩
      refine ⟨_, later, ?_⟩
      rcases state with ended | ⟨task, rfl⟩
      · exact .inl ended
      · exact .inr ⟨task, rfl⟩
    · intro operation performs isOwn
      rcases step_of_operation performs with ⟨isTurn, _⟩
      exact own (isOwn ▸ isTurn)

theorem IsStopped.neverActs (stopped : world.IsStopped id) : world.NeverActs id := by
  intro choices
  induction choices generalizing world with
  | nil => simp [operations]
  | cons choice choices ih =>
      intro operation member
      rcases stopped.step choice with ⟨later, none⟩
      rw [operations, List.mem_append, Option.mem_toList] at member
      exact member.elim (none operation) (ih later operation)

/-- Threads that have not taken a turn are before their first step. -/
def IsFresh (world : World) : Prop :=
  ∀ (id : Nat) (thread : Thread), world.threads[id]? = some thread → thread.started = false →
    ∃ task, thread.phase = .ready task

/-- The handles of the tracked threads are registered, unless waits have taken them. -/
structure Registers (taken : List Nat) (world : World) : Prop where
  nonempty : 0 < world.threads.length
  tracked : ∀ id ∈ taken ++ world.registry, world.IsTracked id
  complete : ∀ id, world.IsTracked id → id ∈ taken ++ world.registry
  nodup : (taken ++ world.registry).Nodup

theorem unstarted_setPhase {later : Thread}
    (found : (world.setPhase actor phase).threads[id]? = some later)
    (unstarted : later.started = false) : world.threads[id]? = some later := by
  rw [getElem?_setPhase, Option.map_eq_some_iff] at found
  rcases found with ⟨thread, found, rfl⟩
  by_cases same : actor = id
  · simp [same] at unstarted
  · simp [same, found]

theorem IsFresh.setPhase (fresh : world.IsFresh) {changed : World}
    (threads : changed.threads = world.threads) (actor : Nat) (phase : Phase) :
    (changed.setPhase actor phase).IsFresh := by
  intro id thread found unstarted
  have before := unstarted_setPhase found unstarted
  rw [threads] at before
  exact fresh id thread before unstarted

theorem IsFresh.takeStep (fresh : world.IsFresh) (actor : Nat) (task : Task) :
    (world.takeStep actor task).IsFresh := by
  cases task with
  | abortAll next =>
      intro id thread found unstarted
      have before := unstarted_setPhase found unstarted
      rw [abortAll, List.getElem?_mapIdx, Option.map_eq_some_iff] at before
      rcases before with ⟨earlier, isEarlier, rfl⟩
      have known := fresh id earlier isEarlier
      split at unstarted <;> simp_all
  | spawn child next =>
      intro id thread found unstarted
      have spawned := fresh.setPhase rfl actor (.ready next)
      simp only [World.takeStep, List.getElem?_append] at found
      split at found
      · exact spawned id thread found unstarted
      · rw [List.getElem?_singleton, Option.ite_none_right_eq_some] at found
        rcases Option.some.inj found.2 with rfl
        exact ⟨child, rfl⟩
  | call tool command next =>
      unfold World.takeStep
      dsimp only
      split <;> exact fresh.setPhase rfl actor _
  | deliver view content next => exact fresh.setPhase (threads_deliver world view content) actor _
  | change action next => exact fresh.setPhase (threads_change world action) actor _
  | _ => exact fresh.setPhase rfl actor _

theorem Registers.of_same {taken later : List Nat} (registers : world.Registers taken)
    {after : World} (length : after.threads.length = world.threads.length)
    (handles : later ++ after.registry = taken ++ world.registry) : after.Registers later where
  nonempty := length ▸ registers.nonempty
  tracked id member := by
    rw [handles] at member
    simpa [IsTracked, length] using registers.tracked id member
  complete id isTracked := by
    rw [handles]
    exact registers.complete id (by simpa [IsTracked, length] using isTracked)
  nodup := handles ▸ registers.nodup

theorem Registers.takeStep {taken : List Nat} (registers : world.Registers taken) (actor : Nat)
    (task : Task) : (world.takeStep actor task).Registers taken := by
  have length := length_takeStep world actor task
  have registry := registry_takeStep world actor task
  cases task with
  | spawn child next =>
      have isNew : ∀ id ∈ taken ++ world.registry, id < world.threads.length :=
        fun id member => (registers.tracked id member).2
      have handles : taken ++ (world.takeStep actor (.spawn child next)).registry =
          (taken ++ world.registry) ++ [world.threads.length] := by
        rw [registry, List.append_assoc]
        rfl
      have grown : (world.takeStep actor (.spawn child next)).threads.length =
          world.threads.length + 1 := length
      have nonempty := registers.nonempty
      refine ⟨by omega, ?_, ?_, ?_⟩
      · intro id member
        rw [handles, List.mem_append, List.mem_singleton] at member
        rcases member with before | rfl
        · have tracked := registers.tracked id before
          exact ⟨tracked.1, by have := tracked.2; omega⟩
        · exact ⟨nonempty, by omega⟩
      · intro id isTracked
        rw [handles, List.mem_append, List.mem_singleton]
        by_cases last : id = world.threads.length
        · exact .inr last
        · exact .inl (registers.complete id ⟨isTracked.1, by have := isTracked.2; omega⟩)
      · rw [handles, List.nodup_append]
        refine ⟨registers.nodup, List.nodup_singleton _, ?_⟩
        intro id member other isLast
        have small := isNew id member
        rw [List.mem_singleton] at isLast
        omega
  | _ => exact registers.of_same length (by rw [registry]; simp [Task.spawned])

/-- A choice lets a wait take all handles that are registered, or adds handles of new threads. -/
theorem Registers.step {taken : List Nat} (registers : world.Registers taken) (choice : Choice) :
    (world.step choice).Registers (taken ++ world.collected choice) := by
  have stays {after : World} (none : world.collected choice = [])
      (length : after.threads.length = world.threads.length)
      (registry : after.registry = world.registry) :
      after.Registers (taken ++ world.collected choice) :=
    registers.of_same length (by rw [none, registry, List.append_nil])
  cases choice with
  | cancel => exact stays rfl rfl rfl
  | land actor landing =>
      simp only [World.step, land]
      cases world.phase actor with
      | inFlight tool command next =>
          dsimp only
          split <;> exact stays rfl (by simp) rfl
      | _ => exact stays rfl rfl rfl
  | turn actor =>
      cases acting : world.threads[actor]? with
      | none =>
          have rests : world.step (.turn actor) = world := by simp [World.step, turn, acting]
          rw [rests]
          exact stays (by simp [collected, acting?, acting]) rfl rfl
      | some thread =>
          rcases step_turn acting with ⟨stepped, stops⟩ | ⟨_, acts, stepped⟩
          · rw [stepped]
            exact stays (by simp [collected, stops]) (by simp) rfl
          · rw [stepped]
            cases isPhase : thread.phase with
            | ready task =>
                have none : world.collected (.turn actor) = [] := by
                  simp [collected, acts, isPhase]
                rw [none, List.append_nil]
                exact registers.takeStep actor task
            | awaiting others next =>
                cases others with
                | nil =>
                    have all : world.collected (.turn actor) = world.registry := by
                      simp [collected, acts, isPhase]
                    dsimp only
                    split
                    case isTrue none => exact stays (all.trans none) (by simp) rfl
                    case isFalse _ =>
                      apply registers.of_same
                      · simp
                      · rw [all]
                        exact List.append_nil _
                | cons first others =>
                    have none : world.collected (.turn actor) = [] := by
                      simp [collected, acts, isPhase]
                    dsimp only
                    split
                    · exact stays none (by simp) rfl
                    · exact stays none rfl rfl
            | _ => exact stays (by simp [collected, acts, isPhase]) rfl rfl

theorem taken_append (world : World) (earlier later : List Choice) :
    world.taken (earlier ++ later) = world.taken earlier ++ (world.run earlier).taken later := by
  induction earlier generalizing world with
  | nil => rfl
  | cons choice earlier ih => simp [taken, run, ih]

section run

variable (root : Task) (steps : Nat) (files : FileTree) (choices : List Choice)

theorem registers_run :
    ((new root steps files).run choices).Registers ((new root steps files).taken choices) := by
  induction choices using List.reverseRecOn with
  | nil =>
      refine ⟨Nat.one_pos, by simp [taken, run, new], ?_, by simp [taken, run, new]⟩
      intro id isTracked
      have small : id < 1 := isTracked.2
      have positive := isTracked.1
      omega
  | append_singleton earlier choice ih =>
      rw [run_append, taken_append]
      simpa [run, taken] using ih.step choice

theorem isFresh_run : ((new root steps files).run choices).IsFresh := by
  refine holds_of_acts (fun world _ => world.IsFresh) ?_ ?_ (within_any _ choices)
  · intro id thread found _
    rw [new, List.getElem?_singleton, Option.ite_none_right_eq_some] at found
    rcases Option.some.inj found.2 with rfl
    exact ⟨root, rfl⟩
  · intro earlier made after _ act fresh
    cases act with
    | rest => exact fresh
    | cancel allowed => exact fresh
    | act ready => exact fresh.takeStep _ _
    | _ => exact fresh.setPhase rfl _ _

end run

/-- What a call that stops the registered threads leaves of one that has not taken a turn. -/
theorem exists_thread_of_call {next : Task} (fresh : world.IsFresh)
    (isTracked : world.IsTracked id)
    (unstarted : (world.takeStep actor (.abortAll next)).hasStarted id = false) :
    ∃ task, (world.takeStep actor (.abortAll next)).threads[id]? =
      some ⟨.ready task, false, world.aborted id || world.registry.contains id⟩ := by
  have isThread : world.threads[id]? = some (world.threads.get ⟨id, isTracked.2⟩) :=
    List.getElem?_eq_getElem isTracked.2
  generalize world.threads.get ⟨id, isTracked.2⟩ = thread at isThread
  have after : (world.takeStep actor (.abortAll next)).threads[id]? = some
      (if actor = id then ⟨.ready next, true, thread.aborted || world.registry.contains id⟩
        else { thread with aborted := thread.aborted || world.registry.contains id }) := by
    rw [takeStep, getElem?_setPhase, abortAll, List.getElem?_mapIdx, isThread]
    by_cases same : actor = id <;> by_cases registered : id ∈ world.registry <;>
      simp [same, registered]
  rw [hasStarted, after] at unstarted
  by_cases same : actor = id
  · simp [same] at unstarted
  · simp only [if_neg same] at unstarted after
    rcases fresh id thread isThread unstarted with ⟨task, isPhase⟩
    refine ⟨task, ?_⟩
    have notStarted : thread.started = false := unstarted
    simp [after, aborted, isThread, isPhase, notStarted]

section call

variable (root : Task) (steps : Nat) (files : FileTree) {earlier : List Choice} {next : Task}

/-- A tracked thread that has not taken a turn when the others are stopped never acts after that if
it was stopped before, or if no wait has taken its handle from the registry; else it may act. -/
theorem neverActs_iff_of_call
    (calls : ((new root steps files).run earlier).operation? choice = some (actor, .abortAll next))
    (isTracked : ((new root steps files).run earlier).IsTracked id)
    (unstarted : (((new root steps files).run earlier).step choice).hasStarted id = false) :
    (((new root steps files).run earlier).step choice).NeverActs id ↔
      ((new root steps files).run earlier).aborted id = true ∨
        id ∉ (new root steps files).taken earlier := by
  have registers := registers_run root steps files earlier
  have fresh := isFresh_run root steps files earlier
  generalize (new root steps files).run earlier = world at *
  generalize (new root steps files).taken earlier = taken at *
  rw [(step_of_operation calls).2.2] at unstarted ⊢
  rcases exists_thread_of_call fresh isTracked unstarted with ⟨task, found⟩
  have registered : id ∈ world.registry ↔ id ∉ taken := by
    have complete := registers.complete id isTracked
    have disjoint := (List.nodup_append.1 registers.nodup).2.2
    rw [List.mem_append] at complete
    constructor
    · exact fun isRegistered isTaken => disjoint id isTaken id isRegistered rfl
    · exact complete.resolve_left
  rw [← registered]
  constructor
  · intro never
    by_contra spared
    have goesOn : (world.aborted id || world.registry.contains id) = false := by
      simpa [not_or] using spared
    rw [goesOn] at found
    refine never [.turn id] (id, task) ?_ rfl
    simp [operations, operation?, acting?, found]
  · intro stopped
    apply IsStopped.neverActs
    refine ⟨_, found, .inr ⟨task, ?_⟩⟩
    simpa using stopped

end call

/-- A program that tracks a task which tracks another one and stops all, and a task that comes
late. -/
def callingProgram : Task :=
  .spawn (.spawn (.update "Nested" .done) (.abortAll .done))
    (.spawn (.advance "Late" 1 .done) (.awaitAll .done))

/-- The main thread waits, and has the first task begin. -/
def callingChoices : List Choice := [0, 0, 0, 0, 1].map .turn

theorem neverActs_iff_of_call_nested :
    ((new callingProgram 4 ⟨.directory [], []⟩).run callingChoices).operation? (.turn 1) =
        some (1, .abortAll .done) ∧
      ((new callingProgram 4 ⟨.directory [], []⟩).run callingChoices).IsTracked 3 ∧
      ((((new callingProgram 4 ⟨.directory [], []⟩).run callingChoices).step
        (.turn 1)).NeverActs 3 ↔
        ((new callingProgram 4 ⟨.directory [], []⟩).run callingChoices).aborted 3 = true ∨
          3 ∉ (new callingProgram 4 ⟨.directory [], []⟩).taken callingChoices) := by
  have calls : ((new callingProgram 4 ⟨.directory [], []⟩).run callingChoices).operation?
      (.turn 1) = some (1, .abortAll .done) := rfl
  have isTracked : ((new callingProgram 4 ⟨.directory [], []⟩).run callingChoices).IsTracked 3 :=
    ⟨by decide, by decide⟩
  exact ⟨calls, isTracked,
    neverActs_iff_of_call callingProgram 4 ⟨.directory [], []⟩ calls isTracked rfl⟩

/-- A call that is made during a wait spares a task that has been tracked before it. -/
theorem not_forall_neverActs_of_call :
    ¬∀ (root : Task) (steps : Nat) (files : FileTree) (earlier : List Choice) (choice : Choice)
      (actor : Nat) (next : Task) (id : Nat),
      ((new root steps files).run earlier).operation? choice = some (actor, .abortAll next) →
      ((new root steps files).run earlier).IsTracked id →
      (((new root steps files).run earlier).step choice).hasStarted id = false →
      (((new root steps files).run earlier).step choice).NeverActs id := by
  intro always
  have never := always callingProgram 4 ⟨.directory [], []⟩ callingChoices (.turn 1) 1 .done 2 rfl
    ⟨by decide, by decide⟩ rfl
  exact never [.turn 2] (2, .advance "Late" 1 .done) (List.mem_singleton_self _) rfl

end CompiledViews.World
