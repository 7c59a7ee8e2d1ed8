import CompiledViews.Proofs.Run.Stages

/-!
# Runs come to their end

What surrounds a run is how its tools may end, and whether it may be cancelled. If a tool may always
end somehow, then from every point of a run in good order there are choices after which the main
thread is at its end: the threads beside it can be brought to their ends one after the other, and
then nothing keeps the main thread from going on, as it waits for no thread that goes on. So a run
never gets stuck, and only a tool that does not end can keep it from its end.
-/

namespace CompiledViews

/-- A property of all tasks that a phase may go on with. -/
def Phase.GoesOnWith (property : Task → Prop) : Phase → Prop
  | ready task | awaiting _ task => property task
  | inFlight _ _ next => ∀ outcome, property (next outcome)
  | ended => True

/-- A property of all tasks, if each has it whose phases after a step go on with such tasks. -/
theorem Task.of_goesOnWith {property : Task → Prop}
    (step : ∀ task : Task, (∀ world, (task.after world).GoesOnWith property) → property task)
    (task : Task) : property task := by
  induction task with
  | done => exact step _ fun world => trivial
  | spawn child next _ ih => exact step _ fun world => ih
  | askCancelled next ih => exact step _ fun world => ih _
  | change action next ih => exact step _ fun world => ih _
  | look next ih => exact step _ fun world => ih _
  | call tool command next ih =>
      apply step _
      intro world
      rw [after_call]
      split
      · exact ih _
      · exact ih
  | _ => exact step _ fun world => by assumption

/-- What surrounds a run: how its tools may end, and whether it may be cancelled. -/
structure Surroundings where
  lands : Tool → Command → Landing → Prop
  cancels : Prop

namespace Surroundings

/-- Anything may happen. -/
def any : Surroundings := ⟨fun _ _ _ => True, True⟩

/-- The run is not cancelled, and no tool ends as if it were. -/
def calm : Surroundings := ⟨fun _ _ landing => landing.outcome ≠ .error .cancelled, False⟩

theorem exists_calm (tool : Tool) (command : Command) :
    ∃ landing, calm.lands tool command landing :=
  ⟨⟨.ok ⟨0, []⟩, id⟩, by simp [calm]⟩

end Surroundings

namespace World

/-- A choice that surroundings admit in a world. -/
def Admits (surroundings : Surroundings) (world : World) : Choice → Prop
  | .turn _ => True
  | .land id landing => ∀ tool command next, world.phase id = .inFlight tool command next →
    surroundings.lands tool command landing
  | .cancel => surroundings.cancels

/-- Choices that surroundings admit, each in the world that the ones before it lead to. -/
def Within (surroundings : Surroundings) : World → List Choice → Prop
  | _, [] => True
  | world, choice :: choices =>
    world.Admits surroundings choice ∧ (world.step choice).Within surroundings choices

variable {surroundings : Surroundings}

theorem run_append (world : World) (earlier later : List Choice) :
    world.run (earlier ++ later) = (world.run earlier).run later := by
  simp [run]

theorem within_append {start : World} {earlier later : List Choice} :
    start.Within surroundings (earlier ++ later) ↔
      start.Within surroundings earlier ∧ (start.run earlier).Within surroundings later := by
  induction earlier generalizing start with
  | nil => simp [Within, run]
  | cons choice earlier ih => simp [Within, run, ih, and_assoc]

theorem Within.mono {surroundings wider : Surroundings} {start : World} {choices : List Choice}
    (within : start.Within surroundings choices)
    (lands : ∀ tool command landing, surroundings.lands tool command landing →
      wider.lands tool command landing)
    (cancels : surroundings.cancels → wider.cancels) : start.Within wider choices := by
  induction choices generalizing start with
  | nil => trivial
  | cons choice choices ih =>
      refine ⟨?_, ih within.2⟩
      have admits := within.1
      cases choice with
      | turn id => trivial
      | land id landing =>
          exact fun tool command next flies => lands _ _ _ (admits tool command next flies)
      | cancel => exact cancels admits

theorem admits_any (world : World) (choice : Choice) : world.Admits .any choice := by
  cases choice with
  | turn id => trivial
  | land id landing => exact fun _ _ _ _ => trivial
  | cancel => trivial

theorem within_any (start : World) (choices : List Choice) : start.Within .any choices := by
  induction choices generalizing start with
  | nil => trivial
  | cons choice choices ih => exact ⟨start.admits_any choice, ih _⟩

/-- Whether a choice neither cancels a run nor ends a tool as if it were cancelled. -/
def Choice.isCalm : Choice → Bool
  | turn _ => true
  | land _ landing => landing.outcome ≠ .error .cancelled
  | cancel => false

theorem within_calm (start : World) {choices : List Choice}
    (calm : choices.all Choice.isCalm = true) : start.Within .calm choices := by
  induction choices generalizing start with
  | nil => trivial
  | cons choice choices ih =>
      rw [List.all_cons, Bool.and_eq_true] at calm
      refine ⟨?_, ih _ calm.2⟩
      cases choice with
      | turn id => trivial
      | land id landing =>
          have allowed : landing.outcome ≠ .error .cancelled := of_decide_eq_true calm.1
          exact fun _ _ _ _ => allowed
      | cancel => exact absurd calm.1 (by decide)

theorem Within.never {start : World} {choices : List Choice}
    (within : start.Within surroundings choices) (never : ¬surroundings.cancels) :
    Choice.cancel ∉ choices := by
  induction choices generalizing start with
  | nil => exact List.not_mem_nil
  | cons choice choices ih =>
      rw [List.mem_cons, not_or]
      refine ⟨fun isCancel => never ?_, ih within.2⟩
      have admits := within.1
      rwa [← isCancel] at admits

/-- A world that some choices lead to that surroundings admit. -/
def Reaches (surroundings : Surroundings) (world after : World) : Prop :=
  ∃ choices, world.Within surroundings choices ∧ world.run choices = after

section reaches

variable {world middle after : World} {id : Nat}

theorem Reaches.refl (world : World) : world.Reaches surroundings world := ⟨[], trivial, rfl⟩

theorem Reaches.trans (first : world.Reaches surroundings middle)
    (second : middle.Reaches surroundings after) : world.Reaches surroundings after := by
  rcases first with ⟨choices, within, rfl⟩
  rcases second with ⟨more, moreWithin, rfl⟩
  exact ⟨choices ++ more, within_append.2 ⟨within, moreWithin⟩, run_append world choices more⟩

theorem reaches_turn (taken : world.turn id = some after) : world.Reaches surroundings after :=
  ⟨[.turn id], ⟨trivial, trivial⟩, by simp [run, step, taken]⟩

theorem reaches_land {tool : Tool} {command : Command} {next : Outcome → Task} {landing : Landing}
    (flies : world.phase id = .inFlight tool command next)
    (lands : surroundings.lands tool command landing) :
    world.Reaches surroundings (world.step (.land id landing)) := by
  refine ⟨[.land id landing], ⟨fun _ _ _ flying => ?_, trivial⟩, rfl⟩
  rcases Phase.inFlight.inj (flies.symm.trans flying) with ⟨rfl, rfl, _⟩
  exact lands

/-- A tool that ends gives its thread an outcome, and leaves the other threads where they are. -/
theorem step_land {tool : Tool} {command : Command} {next : Outcome → Task}
    (flies : world.phase id = .inFlight tool command next) (landing : Landing) :
    ∃ outcome, (world.step (.land id landing)).phase id = .ready (next outcome) ∧
      ∀ other, other ≠ id → (world.step (.land id landing)).phase other = world.phase other := by
  have exists_ := lt_of_phase flies (by simp)
  simp only [step, land, flies]
  split
  · exact ⟨_, phase_setPhase_self exists_ _, fun _ different => phase_setPhase_of_ne different _⟩
  · refine ⟨landing.outcome, phase_setPhase_self (by exact exists_) _, fun other different => ?_⟩
    exact (phase_setPhase_of_ne different _).trans (phase_of_threads rfl)

/-- A thread that is ready stops or takes its step. -/
theorem turn_of_ready {task : Task} (ready : world.phase id = .ready task) :
    world.turn id = some (world.setPhase id .ended) ∨
      world.turn id = some (world.takeStep id task) := by
  rcases exists_of_phase ready (by simp) with ⟨thread, found, isPhase⟩
  simp only [turn, found]
  split
  · exact .inl rfl
  · exact .inr (by simp [isPhase])

theorem turn_ready {task : Task} (goesOn : world.aborted id = false)
    (ready : world.phase id = .ready task) : world.turn id = some (world.takeStep id task) := by
  rcases exists_of_phase ready (by simp) with ⟨thread, found, isPhase⟩
  have notAborted : thread.aborted = false := by simpa [aborted, found] using goesOn
  simp [turn, found, notAborted, isPhase]

theorem turn_resume {next : Task} (goesOn : world.aborted id = false)
    (waits : world.phase id = .awaiting [] next) (none : world.registry = []) :
    world.turn id = some (world.setPhase id (.ready next)) := by
  rcases exists_of_phase waits (by simp) with ⟨thread, found, isPhase⟩
  have notAborted : thread.aborted = false := by simpa [aborted, found] using goesOn
  simp [turn, found, notAborted, isPhase, none]

theorem turn_collect {next : Task} (goesOn : world.aborted id = false)
    (waits : world.phase id = .awaiting [] next) (some_ : world.registry ≠ []) :
    world.turn id =
      some ({ world with registry := [] }.setPhase id (.awaiting world.registry next)) := by
  rcases exists_of_phase waits (by simp) with ⟨thread, found, isPhase⟩
  have notAborted : thread.aborted = false := by simpa [aborted, found] using goesOn
  simp [turn, found, notAborted, isPhase, some_]

theorem turn_skip {other : Nat} {others : List Nat} {next : Task}
    (goesOn : world.aborted id = false) (waits : world.phase id = .awaiting (other :: others) next)
    (ended : world.phase other = .ended) :
    world.turn id = some (world.setPhase id (.awaiting others next)) := by
  rcases exists_of_phase waits (by simp) with ⟨thread, found, isPhase⟩
  have notAborted : thread.aborted = false := by simpa [aborted, found] using goesOn
  simp [turn, found, notAborted, isPhase, hasEnded_iff.2 ended]

end reaches

variable {ending : Text → Prop} {world after : World} {id : Nat}

theorem Orderly.reaches (orderly : world.Orderly ending)
    (reached : world.Reaches surroundings after) : after.Orderly ending := by
  rcases reached with ⟨choices, -, rfl⟩
  induction choices generalizing world with
  | nil => exact orderly
  | cons choice choices ih => exact ih (orderly.move (world.move_step choice))

/-- The main thread can leave behind the threads that it waits for in the first place. -/
theorem exists_skipped (orderly : world.Orderly ending) (alone : world.Alone) {others : List Nat}
    {next : Task} (waits : world.phase 0 = .awaiting others next) :
    ∃ after, world.Reaches surroundings after ∧ after.phase 0 = .awaiting [] next ∧ after.Alone ∧
      after = { world with threads := after.threads } := by
  induction others generalizing world with
  | nil => exact ⟨world, .refl world, waits, alone, rfl⟩
  | cons other others ih =>
      have isFork : other ≠ 0 := fun isMain =>
        orderly.notAwaited (by simp [awaited, waits, Phase.others, isMain])
      have skips := turn_skip orderly.goesOn waits (alone other isFork)
      have skipped : world.Reaches surroundings _ := reaches_turn skips
      obtain ⟨after, reached, skipped_after, alone_after, unchanged⟩ :=
        ih (orderly.reaches skipped)
          (fun id isFork => (phase_setPhase_of_ne isFork _).trans (alone id isFork))
          (phase_setPhase_self orderly.exists_main _)
      exact ⟨after, skipped.trans reached, skipped_after, alone_after, unchanged⟩

/-- The main thread can go on once the other threads have ended. -/
theorem exists_resumed (orderly : world.Orderly ending) (alone : world.Alone) {others : List Nat}
    {next : Task} (waits : world.phase 0 = .awaiting others next) :
    ∃ after, world.Reaches surroundings after ∧ after.phase 0 = .ready next ∧ after.Alone ∧
      after = { world with threads := after.threads, registry := [] } := by
  have resumed {middle : World} (reached : world.Reaches surroundings middle)
      (skipped : middle.phase 0 = .awaiting [] next) (alone : middle.Alone)
      (none : middle.registry = [])
      (unchanged : middle = { world with threads := middle.threads, registry := [] }) :
      ∃ after, world.Reaches surroundings after ∧ after.phase 0 = .ready next ∧ after.Alone ∧
        after = { world with threads := after.threads, registry := [] } := by
    have orderly_middle := orderly.reaches reached
    refine ⟨middle.setPhase 0 (.ready next),
      reached.trans (reaches_turn (turn_resume orderly_middle.goesOn skipped none)),
      phase_setPhase_self orderly_middle.exists_main _,
      fun id isFork => (phase_setPhase_of_ne isFork _).trans (alone id isFork), ?_⟩
    rw [unchanged]
    rfl
  rcases exists_skipped orderly alone waits with ⟨middle, reached, skipped, alone_middle, unchanged⟩
  have orderly_middle := orderly.reaches reached
  by_cases none : middle.registry = []
  · refine resumed reached skipped alone_middle none ?_
    rw [← none]
    rw [unchanged]
  · have collects := turn_collect orderly_middle.goesOn skipped none
    have collected : world.Reaches surroundings _ := reached.trans (reaches_turn collects)
    obtain ⟨last, again, skipped_last, alone_last, unchanged_last⟩ :=
      exists_skipped (orderly.reaches collected)
        (fun id isFork => (phase_setPhase_of_ne isFork _).trans (alone_middle id isFork))
        (phase_setPhase_self orderly_middle.exists_main _)
    refine resumed (collected.trans again) skipped_last alone_last ?_ ?_
    · rw [unchanged_last]
      rfl
    · rw [unchanged_last, unchanged]
      rfl

/-- A thread beside the main one has come to its end, and the others are where they were. -/
structure Finishes (surroundings : Surroundings) (world : World) (id : Nat) (after : World) :
    Prop where
  reaches : world.Reaches surroundings after
  ended : after.phase id = .ended
  others : ∀ other, other ≠ id → after.phase other = world.phase other

theorem Finishes.of_reaches {middle : World} (reached : world.Reaches surroundings middle)
    (others : ∀ other, other ≠ id → middle.phase other = world.phase other)
    (finishes : middle.Finishes surroundings id after) : world.Finishes surroundings id after where
  reaches := reached.trans finishes.reaches
  ended := finishes.ended
  others other different := (finishes.others other different).trans (others other different)

/-- A thread that is ready to go on with a task can come to its end while the others stay where
they are. -/
def CanFinish (surroundings : Surroundings) (ending : Text → Prop) (id : Nat) (task : Task) :
    Prop :=
  ∀ world : World, world.Orderly ending → world.phase id = .ready task →
    ∃ after, world.Finishes surroundings id after

section answers

variable (answers : ∀ tool command, ∃ landing, surroundings.lands tool command landing)

include answers

/-- So can a thread in a phase that goes on with such tasks, unless it waits for others. -/
theorem exists_finishes (orderly : world.Orderly ending) (isFork : id ≠ 0)
    (goesOn : (world.phase id).GoesOnWith (CanFinish surroundings ending id)) :
    ∃ after, world.Finishes surroundings id after := by
  cases phase : world.phase id with
  | ended => exact ⟨world, .refl world, phase, fun _ _ => rfl⟩
  | awaiting others next => exact absurd (orderly.eq_main_of_awaiting phase) isFork
  | ready task =>
      rw [phase] at goesOn
      exact goesOn world orderly phase
  | inFlight tool command next =>
      rw [phase] at goesOn
      rcases answers tool command with ⟨landing, lands⟩
      have landed := reaches_land phase lands
      rcases step_land phase landing with ⟨outcome, isReady, others⟩
      rcases goesOn outcome _ (orderly.reaches landed) isReady with ⟨after, finishes⟩
      exact ⟨after, .of_reaches landed others finishes⟩

theorem canFinish (isFork : id ≠ 0) (task : Task) :
    CanFinish surroundings ending id task := by
  induction task using Task.of_goesOnWith with
  | step task ih =>
      intro world orderly ready
      have exists_ := lt_of_phase ready (by simp)
      rcases turn_of_ready ready with stops | acts
      · exact ⟨_, reaches_turn stops, phase_setPhase_self exists_ _,
          fun _ different => phase_setPhase_of_ne different _⟩
      · have acted : world.Reaches surroundings _ := reaches_turn acts
        have orderly_after := orderly.reaches acted
        have forked := orderly.forked id isFork
        rcases exists_finishes answers orderly_after isFork
          (phase_takeStep_self exists_ task ▸ ih world) with ⟨after, finishes⟩
        refine ⟨after, .of_reaches acted (fun other different => ?_) finishes⟩
        rcases phase_takeStep exists_ task other with ⟨_, same⟩ | ⟨same, _⟩ | ⟨_, _, _, rfl, _⟩
        · exact same
        · exact absurd same different
        · rw [ready] at forked
          exact forked.elim

/-- The threads beside the main one can come to their ends while the main thread stays where it
is. -/
theorem exists_alone (orderly : world.Orderly ending) :
    ∃ after, world.Reaches surroundings after ∧ after.phase 0 = world.phase 0 ∧ after.Alone := by
  suffices ∀ count, ∃ after, world.Reaches surroundings after ∧ after.phase 0 = world.phase 0 ∧
      ∀ id, id ≠ 0 → id < count ∨ world.phase id = .ended → after.phase id = .ended by
    rcases this world.threads.length with ⟨after, reached, main, ended⟩
    refine ⟨after, reached, main, fun id isFork => ended id isFork ?_⟩
    by_cases exists_ : id < world.threads.length
    · exact .inl exists_
    · exact .inr (by simp [phase, List.getElem?_eq_none (Nat.le_of_not_lt exists_)])
  intro count
  induction count with
  | zero => exact ⟨world, .refl world, rfl, fun id _ => by simp⟩
  | succ count ih =>
      rcases ih with ⟨middle, reached, main, ended⟩
      by_cases isMain : count = 0
      · refine ⟨middle, reached, main, fun id isFork known => ended id isFork ?_⟩
        exact known.imp_left (by omega)
      · have orderly_middle := orderly.reaches reached
        obtain ⟨after, finishes⟩ := exists_finishes answers orderly_middle isMain (by
          cases middle.phase count with
          | inFlight tool command next => exact fun outcome => canFinish answers isMain _
          | ended => trivial
          | _ => exact canFinish answers isMain _)
        refine ⟨after, reached.trans finishes.reaches,
          (finishes.others 0 (Ne.symm isMain)).trans main, fun id isFork known => ?_⟩
        by_cases same : id = count
        · exact same ▸ finishes.ended
        · rw [finishes.others id same]
          exact ended id isFork (known.imp_left (by omega))

/-- The main thread can come to its end from where it is ready to go on with a task. -/
def CanEnd (surroundings : Surroundings) (ending : Text → Prop) (task : Task) : Prop :=
  ∀ world : World, world.Orderly ending → world.phase 0 = .ready task →
    ∃ after, world.Reaches surroundings after ∧ after.phase 0 = .ended

theorem exists_ended_of_goesOn (orderly : world.Orderly ending)
    (goesOn : (world.phase 0).GoesOnWith (CanEnd surroundings ending)) :
    ∃ after, world.Reaches surroundings after ∧ after.phase 0 = .ended := by
  cases phase : world.phase 0 with
  | ended => exact ⟨world, .refl world, phase⟩
  | ready task =>
      rw [phase] at goesOn
      exact goesOn world orderly phase
  | inFlight tool command next =>
      rw [phase] at goesOn
      rcases answers tool command with ⟨landing, lands⟩
      have landed := reaches_land phase lands
      rcases step_land phase landing with ⟨outcome, isReady, _⟩
      rcases goesOn outcome _ (orderly.reaches landed) isReady with ⟨after, reached, ended⟩
      exact ⟨after, landed.trans reached, ended⟩
  | awaiting others next =>
      rw [phase] at goesOn
      rcases exists_alone answers orderly with ⟨middle, reached, same, alone⟩
      obtain ⟨last, resumed, ready, _⟩ :=
        exists_resumed (orderly.reaches reached) alone (same.trans phase)
      have reached_last := reached.trans resumed
      rcases goesOn last (orderly.reaches reached_last) ready with ⟨after, reached, ended⟩
      exact ⟨after, reached_last.trans reached, ended⟩

theorem canEnd (task : Task) : CanEnd surroundings ending task := by
  induction task using Task.of_goesOnWith with
  | step task ih =>
      intro world orderly ready
      rcases turn_of_ready ready with stops | acts
      · exact ⟨_, reaches_turn stops, phase_setPhase_self orderly.exists_main _⟩
      · have acted : world.Reaches surroundings _ := reaches_turn acts
        rcases exists_ended_of_goesOn answers (orderly.reaches acted)
          (phase_takeStep_self orderly.exists_main task ▸ ih world) with ⟨after, reached, ended⟩
        exact ⟨after, acted.trans reached, ended⟩

/-- A run in good order can come to its end, if tools can end. -/
theorem Orderly.exists_ended_within (orderly : world.Orderly ending) :
    ∃ rest, world.Within surroundings rest ∧ (world.run rest).hasEnded 0 = true := by
  obtain ⟨_, ⟨rest, within, rfl⟩, ended⟩ := exists_ended_of_goesOn answers orderly (by
    cases world.phase 0 with
    | inFlight tool command next => exact fun outcome => canEnd answers _
    | ended => trivial
    | _ => exact canEnd answers _)
  exact ⟨rest, within, hasEnded_iff.2 ended⟩

end answers

theorem Orderly.exists_ended (orderly : world.Orderly ending) :
    ∃ rest, (world.run rest).hasEnded 0 = true := by
  let gone : Landing := ⟨.error .cancelled, fun files => files⟩
  have answers (tool : Tool) (command : Command) :
      ∃ landing, Surroundings.any.lands tool command landing := ⟨gone, trivial⟩
  rcases orderly.exists_ended_within answers with ⟨rest, _, ended⟩
  exact ⟨rest, ended⟩

end World

end CompiledViews
