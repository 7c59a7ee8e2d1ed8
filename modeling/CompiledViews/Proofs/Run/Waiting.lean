import CompiledViews.Proofs.Run.Families

/-!
# Waiting for every thread

While threads use a tracker, the main thread waits for every other one that goes on, or the registry
holds it: a thread is registered as it is started, the registry is emptied only by the main thread,
which then waits for what it held, and no thread leaves off waiting for another before that has
ended. So when a wait returns, with no thread left to be waited for and an empty registry, all
others have ended, those included that were started during the wait.
-/

namespace CompiledViews

namespace World

variable {surroundings : Surroundings} {world after : World} {made record : List (Nat × Deed)}
  {root : Task} {id : Nat}

/-- Every thread that goes on is awaited by the main thread, which does not await itself. -/
structure Waiting (world : World) : Prop where
  waited : ∀ id, id ≠ 0 → world.phase id = .ended ∨ id ∈ world.awaited
  notAwaited : 0 ∉ world.awaited

namespace Waiting

theorem takeStep (waiting : world.Waiting) {task : Task} (ready : world.phase id = .ready task) :
    (world.takeStep id task).Waiting where
  waited other isFork := by
    rw [awaited_takeStep ready, List.mem_append]
    rcases phase_takeStep (lt_of_phase ready (by simp)) task other with
      ⟨_, same⟩ | ⟨rfl, _⟩ | ⟨isNew, child, next, rfl, _⟩
    · rw [same]
      exact (waiting.waited other isFork).imp_right .inl
    · have goesOn : world.phase other ≠ .ended := by simp [ready]
      exact .inr (.inl ((waiting.waited other isFork).resolve_left goesOn))
    · exact .inr (.inr (List.mem_singleton.2 isNew))
  notAwaited := main_not_awaited_takeStep ready waiting.notAwaited

/-- The main thread leaves off waiting only for threads that have ended, and the registry is emptied
only as it waits for what it held. -/
theorem setPhase_main (waiting : world.Waiting) {changed : World} {phase : Phase}
    (threads : changed.threads = world.threads) (exists_ : 0 < world.threads.length)
    (kept : ∀ id ∈ world.awaited,
      world.phase id = .ended ∨ id ∈ phase.others ++ changed.registry)
    (known : ∀ id ∈ phase.others ++ changed.registry, id ∈ world.awaited) :
    (changed.setPhase 0 phase).Waiting := by
  have awaited_after := awaited_setPhase_main (threads ▸ exists_) phase
  refine ⟨fun id isFork => ?_, fun isAwaited => ?_⟩
  · have same : (changed.setPhase 0 phase).phase id = world.phase id :=
      (phase_setPhase_of_ne isFork phase).trans (phase_of_threads (by rw [threads]))
    rw [same, awaited_after]
    rcases waiting.waited id isFork with ended | isAwaited
    · exact .inl ended
    · exact kept id isAwaited
  · rw [awaited_after] at isAwaited
    exact waiting.notAwaited (known 0 isAwaited)

theorem act (waiting : world.Waiting) (tracking : world.Tracking root record)
    (act : world.Act surroundings made after) : after.Waiting := by
  cases act with
  | rest => exact waiting
  | cancel allowed => exact ⟨waiting.waited, waiting.notAwaited⟩
  | stop aborted goesOn => simp [tracking.goOn] at aborted
  | act ready => exact waiting.takeStep ready
  | @collect id next waits =>
      obtain rfl : id = 0 := (tracking.uses_of_phase waits).1
      have held : world.awaited = world.registry := by simp [awaited, waits, Phase.others]
      have threads : ({ world with registry := [] } : World).threads = world.threads := rfl
      apply waiting.setPhase_main threads (lt_of_phase waits (by simp))
      · exact fun id isAwaited => .inr (List.mem_append_left _ (held ▸ isAwaited))
      · simp [held, Phase.others]
  | @resume id next waits none =>
      obtain rfl : id = 0 := (tracking.uses_of_phase waits).1
      have held : world.awaited = [] := by simp [awaited, waits, none, Phase.others]
      apply waiting.setPhase_main rfl (lt_of_phase waits (by simp))
      · simp [held]
      · simp [none, Phase.others]
  | @skip id other others next waits ended =>
      obtain rfl : id = 0 := (tracking.uses_of_phase waits).1
      have held : world.awaited = other :: (others ++ world.registry) := by
        simp [awaited, waits, Phase.others]
      apply waiting.setPhase_main rfl (lt_of_phase waits (by simp))
      · intro id isAwaited
        rw [held, List.mem_cons] at isAwaited
        rcases isAwaited with rfl | isAwaited
        · exact .inl (hasEnded_iff.1 ended)
        · exact .inr isAwaited
      · intro id isAwaited
        rw [held]
        exact List.mem_cons_of_mem other isAwaited
  | land flies landing uncancelled lands => exact (tracking.uses_of_phase flies).elim
  | drop flies cancelled => exact (tracking.uses_of_phase flies).elim

end Waiting

theorem waiting_run (steps : Nat) (files : FileTree) (uses : root.UsesTracker True)
    (choices : List Choice) : ((new root steps files).run choices).Waiting := by
  refine holds_of_acts (fun world _ => world.Waiting) ?_ ?_ (within_any _ choices)
  · refine ⟨fun id isFork => .inl ?_, by simp [awaited, new, phase, Phase.others, Thread.new]⟩
    cases id with
    | zero => exact absurd rfl isFork
    | succ id => rfl
  · intro earlier made after _ act waiting
    exact waiting.act (tracking_run steps files uses earlier) act

/-- Once no thread is awaited, all but the main one have ended. -/
theorem Waiting.alone (waiting : world.Waiting) (none : world.awaited = []) : world.Alone := by
  intro id isFork
  refine (waiting.waited id isFork).resolve_right ?_
  simp [none]

/-- A wait returns to a thread that waits for no other, while no thread is registered. -/
theorem resumes_of_wait {choice : Choice} (isWait : (id, .wait) ∈ world.deeds choice) :
    ∃ next, world.phase id = .awaiting [] next ∧ world.registry = [] ∧
      world.step choice = world.setPhase id (.ready next) := by
  have act := act_step (world.admits_any choice)
  generalize world.deeds choice = made at act isWait
  generalize world.step choice = after at act ⊢
  cases act with
  | @act actor task ready =>
      have noWait : Deed.wait ∉ task.deeds world := by
        cases task <;> simp [Task.deeds]
        split <;> simp
      simp [noWait] at isWait
  | @resume actor next waits none =>
      obtain rfl : id = actor := by simpa using isWait
      exact ⟨next, waits, none, rfl⟩
  | land flies landing uncancelled lands => simp at isWait
  | drop flies cancelled => simp at isWait
  | _ => exact absurd isWait List.not_mem_nil

end World

/-! ## The turns that are left -/

/-- A bound on the turns that a task and the threads that it starts may take, with those in which
the main thread takes one of these from the registry and leaves it behind. -/
def Task.weight : Task → Nat
  | update _ next | advance _ _ next | skipToEnd _ next => next.weight + 1
  | spawn child next => child.weight + next.weight + 3
  | awaitAll next => next.weight + 2
  | _ => 1

def Phase.weight : Phase → Nat
  | ready task => task.weight
  | awaiting _ next => next.weight + 1
  | _ => 0

theorem Task.UsesTracker.weight_after_add_le {waits : Prop} {task : Task}
    (uses : task.UsesTracker waits) (world : World) :
    (task.after world).weight +
      ((task.births.map fun child => (Phase.ready child).weight).sum + 2 * task.births.length + 1) ≤
        (Phase.ready task).weight := by
  cases task with
  | spawn child next =>
      simp only [Task.births, Task.after, Phase.weight, weight, List.map_cons, List.map_nil,
        List.sum_cons, List.sum_nil, List.length_cons, List.length_nil]
      omega
  | done | update | advance | skipToEnd | awaitAll =>
      simp [Task.births, Task.after, Phase.weight, weight]
  | _ => exact uses.elim

namespace World

variable {world : World} {record : List (Nat × Deed)} {root : Task} {id : Nat}

/-- The weights of the threads, and what is left to be done with those that are awaited: to take
them from the registry, and to leave them behind. -/
def weight (world : World) : Nat :=
  world.total Phase.weight + world.registry.length + world.awaited.length

theorem weight_takeStep_lt {waits : Prop} {task : Task} (uses : task.UsesTracker waits)
    (ready : world.phase id = .ready task) : (world.takeStep id task).weight < world.weight := by
  have lighter := total_setPhase_add_le ready (by simp) (uses.weight_after_add_le world)
  have births : (task.spawned world).length = task.births.length := by cases task <;> rfl
  rw [weight, total_takeStep _ ready, registry_takeStep, awaited_takeStep ready,
    List.length_append, List.length_append, births, weight]
  omega

theorem weight_setPhase_main_lt {changed : World} {old new : Phase}
    (threads : changed.threads = world.threads) (isPhase : world.phase 0 = old)
    (goesOn : old ≠ .ended) (paid : Nat) (lighter : new.weight + paid ≤ old.weight)
    (fewer : new.others.length + 2 * changed.registry.length <
      old.others.length + 2 * world.registry.length + paid) :
    (changed.setPhase 0 new).weight < world.weight := by
  have exists_ := lt_of_phase isPhase goesOn
  have total_le := total_setPhase_add_le isPhase goesOn lighter
  have same : (changed.setPhase 0 new).total Phase.weight =
      (world.setPhase 0 new).total Phase.weight := by
    simp [total, setPhase, threads]
  have registry : (changed.setPhase 0 new).registry = changed.registry := rfl
  rw [weight, weight, awaited_setPhase_main (threads ▸ exists_), awaited, isPhase, registry,
    List.length_append, List.length_append, same]
  omega

variable (tracking : world.Tracking root record)

include tracking

theorem exists_lighter_of_ready {task : Task} (ready : world.phase id = .ready task) :
    ∃ id after, world.turn id = some after ∧ after.weight < world.weight := by
  refine ⟨id, _, turn_ready (tracking.goOn id) ready, ?_⟩
  exact weight_takeStep_lt (tracking.uses_of_phase ready) ready

/-- Once the others have ended, the main thread can take a turn. -/
theorem exists_lighter_of_alone (waiting : world.Waiting) (alone : world.Alone)
    (goesOn : world.phase 0 ≠ .ended) :
    ∃ id after, world.turn id = some after ∧ after.weight < world.weight := by
  have goOn := tracking.goOn 0
  cases phase : world.phase 0 with
  | ready task => exact exists_lighter_of_ready tracking phase
  | ended => exact absurd phase goesOn
  | inFlight tool command next => exact (tracking.uses_of_phase phase).elim
  | awaiting others next =>
      cases others with
      | nil =>
          by_cases none : world.registry = []
          · refine ⟨0, _, turn_resume goOn phase none, ?_⟩
            exact weight_setPhase_main_lt rfl phase (by simp) 1 le_rfl (by simp [Phase.others])
          · refine ⟨0, _, turn_collect goOn phase none, ?_⟩
            have held := List.length_pos_iff.2 none
            refine weight_setPhase_main_lt rfl phase (by simp) 0 le_rfl ?_
            simp only [Phase.others, List.length_nil]
            omega
      | cons other others =>
          have isFork : other ≠ 0 := fun isMain =>
            waiting.notAwaited (by simp [awaited, phase, Phase.others, isMain])
          refine ⟨0, _, turn_skip goOn phase (alone other isFork), ?_⟩
          exact weight_setPhase_main_lt rfl phase (by simp) 0 le_rfl (by simp [Phase.others])

/-- Until the main thread has ended, some thread can take a turn, and fewer are left then. -/
theorem exists_lighter (waiting : world.Waiting) (goesOn : world.phase 0 ≠ .ended) :
    ∃ id after, world.turn id = some after ∧ after.weight < world.weight := by
  by_cases alone : world.Alone
  · exact exists_lighter_of_alone tracking waiting alone goesOn
  · unfold Alone at alone
    push Not at alone
    rcases alone with ⟨id, isFork, forkGoesOn⟩
    rcases tracking.exists_ready isFork forkGoesOn with ⟨task, ready⟩
    exact exists_lighter_of_ready tracking ready

omit tracking

/-- A run can always go on to where the main thread has ended. -/
theorem exists_ended_of_usesTracker (steps : Nat) (files : FileTree)
    (uses : root.UsesTracker True) (choices : List Choice) :
    ∃ rest, ((new root steps files).run (choices ++ rest)).phase 0 = .ended := by
  induction measure : ((new root steps files).run choices).weight using Nat.strong_induction_on
    generalizing choices with
  | _ weight ih =>
      by_cases ended : ((new root steps files).run choices).phase 0 = .ended
      · exact ⟨[], by rwa [List.append_nil]⟩
      · obtain ⟨id, after, turned, lighter⟩ := exists_lighter
          (tracking_run steps files uses choices) (waiting_run steps files uses choices) ended
        have reached : (new root steps files).run (choices ++ [.turn id]) = after := by
          rw [run_append]
          change ((new root steps files).run choices).step (.turn id) = after
          rw [step, turned, Option.getD_some]
        rcases ih _ (measure ▸ lighter) (choices ++ [.turn id]) (by rw [reached]) with
          ⟨rest, ended⟩
        exact ⟨.turn id :: rest, by simpa using ended⟩

end World

end CompiledViews
