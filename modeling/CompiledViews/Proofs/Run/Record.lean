import CompiledViews.Proofs.Run.Ending
import Mathlib.Data.List.Basic

/-!
# The record of a run

Worlds remember what is reported and launched, but not by which thread, nor what a thread came to
know before it did so. A record keeps the deeds of all threads in the order in which they are done.
It is made along with a run: no step of a thread reads it.

Within what surrounds a run a choice makes one of a few acts, which leave their deeds in the record.
-/

namespace CompiledViews

/-- What a thread does or comes to know. A tool that is asked for is launched, or refused as the run
is cancelled; what comes of a launch is heard when the tool has ended. -/
inductive Deed where
  | status (message : Text)
  | conclude (message : Text)
  | log (text : Text) (isError : Bool)
  | offer (view : View) (content : Content)
  | start (child : Task)
  | launch (tool : Tool) (command : Command)
  | refuse (tool : Tool) (command : Command)
  | hear (tool : Tool) (command : Command) (outcome : Outcome)
  | change (error : Option OsError)
  | wait

/-- The deeds of a step in a world. -/
def Task.deeds (world : World) : Task → List Deed
  | update message _ | advance message _ _ => [.status message]
  | skipToEnd message _ => [.conclude message]
  | log text isError _ => [.log text isError]
  | deliver view content _ => [.offer view content]
  | spawn child _ => [.start child]
  | call tool command _ =>
    if world.cancelled then [.refuse tool command] else [.launch tool command]
  | change action _ => [.change (world.change action).2]
  | done | abortAll _ | awaitAll _ | pause _ | askCancelled _ | look _ => []

/-- The deeds of one thread in a record. -/
def own (id : Nat) (record : List (Nat × Deed)) : List Deed :=
  (record.filter fun entry => entry.1 = id).map Prod.snd

section own

variable {id other : Nat}

@[simp]
theorem own_nil : own id [] = [] := rfl

@[simp]
theorem own_append (earlier new : List (Nat × Deed)) :
    own id (earlier ++ new) = own id earlier ++ own id new := by
  simp [own]

@[simp]
theorem own_map_self (deeds : List Deed) : own id (deeds.map (id, ·)) = deeds := by
  simp [own, List.filter_map, Function.comp_def]

theorem own_map_of_ne (different : other ≠ id) (deeds : List Deed) :
    own other (deeds.map (id, ·)) = [] := by
  simp [own, List.filter_map, Function.comp_def, different.symm]

theorem mem_own {deed : Deed} {record : List (Nat × Deed)} :
    deed ∈ own id record ↔ (id, deed) ∈ record := by
  simp [own]

theorem own_eq_nil {record : List (Nat × Deed)} (others : ∀ entry ∈ record, entry.1 < id) :
    own id record = [] := by
  simp only [own, List.map_eq_nil_iff, List.filter_eq_nil_iff, decide_eq_true_eq]
  exact fun entry member => Nat.ne_of_lt (others entry member)

/-- A record is made up of the deeds of its threads, in some order. -/
theorem perm_flatMap_own {count : Nat} {record : List (Nat × Deed)}
    (inside : ∀ entry ∈ record, entry.1 < count) :
    (record.map Prod.snd).Perm ((List.range count).flatMap fun id => own id record) := by
  induction count generalizing record with
  | zero =>
      have none : record = [] := List.eq_nil_iff_forall_not_mem.2 fun entry member =>
        Nat.not_lt_zero _ (inside entry member)
      simp [none]
  | succ count ih =>
      let isEarlier : Nat × Deed → Bool := fun entry => entry.1 < count
      have small : ∀ entry ∈ record.filter isEarlier, entry.1 < count := fun entry member => by
        simpa [isEarlier] using (List.mem_filter.1 member).2
      have earlier := ih small
      have same : ((List.range count).flatMap fun id => own id (record.filter isEarlier)) =
          (List.range count).flatMap fun id => own id record := by
        refine List.flatMap_congr fun id member => congrArg (List.map Prod.snd) ?_
        rw [List.filter_filter]
        refine List.filter_congr fun entry _ => ?_
        have small := List.mem_range.1 member
        simp only [isEarlier, ← Bool.decide_and, decide_eq_decide]
        omega
      have last : (record.filter fun entry => !isEarlier entry) =
          record.filter fun entry => entry.1 = count := by
        refine List.filter_congr fun entry member => ?_
        have small := inside entry member
        simp only [isEarlier, ← decide_not, decide_eq_decide]
        omega
      rw [List.range_succ, List.flatMap_append, ← same, List.flatMap_singleton, own, ← last]
      have parted := (List.filter_append_perm isEarlier record).symm.map Prod.snd
      rw [List.map_append] at parted
      exact parted.trans (earlier.append_right _)

end own

namespace World

/-- The deeds that a choice makes. -/
def deeds (world : World) : Choice → List (Nat × Deed)
  | .turn id =>
    match world.threads[id]? with
    | none => []
    | some thread =>
      if thread.aborted && !thread.phase.hasEnded && (!thread.started || thread.phase.isPause) then
        []
      else
        match thread.phase with
        | .ready task => (task.deeds world).map (id, ·)
        | .awaiting [] _ => if world.registry = [] then [(id, .wait)] else []
        | .awaiting (_ :: _) _ | .inFlight .. | .ended => []
  | .land id landing =>
    match world.phase id with
    | .inFlight tool command _ =>
      [(id, .hear tool command (if world.cancelled then .error .cancelled else landing.outcome))]
    | _ => []
  | .cancel => []

/-- The deeds that are done while choices are made from a world on. -/
def record : World → List Choice → List (Nat × Deed)
  | _, [] => []
  | world, choice :: choices => world.deeds choice ++ record (world.step choice) choices

theorem record_append (world : World) (earlier later : List Choice) :
    world.record (earlier ++ later) =
      world.record earlier ++ (world.run earlier).record later := by
  induction earlier generalizing world with
  | nil => rfl
  | cons choice earlier ih => simp [record, run, ih]

/-- What a choice may do to a world within surroundings, with the deeds that are done by it. -/
inductive Act (surroundings : Surroundings) (world : World) : List (Nat × Deed) → World → Prop
  where
  | rest : Act surroundings world [] world
  | cancel (allowed : surroundings.cancels) :
      Act surroundings world [] { world with cancelled := true }
  | stop {id : Nat} (aborted : world.aborted id = true) (goesOn : world.phase id ≠ .ended) :
      Act surroundings world [] (world.setPhase id .ended)
  | act {id : Nat} {task : Task} (ready : world.phase id = .ready task) :
      Act surroundings world ((task.deeds world).map (id, ·)) (world.takeStep id task)
  | collect {id : Nat} {next : Task} (waits : world.phase id = .awaiting [] next) :
      Act surroundings world []
        ({ world with registry := [] }.setPhase id (.awaiting world.registry next))
  | resume {id : Nat} {next : Task} (waits : world.phase id = .awaiting [] next)
      (none : world.registry = []) :
      Act surroundings world [(id, .wait)] (world.setPhase id (.ready next))
  | skip {id other : Nat} {others : List Nat} {next : Task}
      (waits : world.phase id = .awaiting (other :: others) next)
      (ended : world.hasEnded other = true) :
      Act surroundings world [] (world.setPhase id (.awaiting others next))
  | land {id : Nat} {tool : Tool} {command : Command} {next : Outcome → Task}
      (flies : world.phase id = .inFlight tool command next) (landing : Landing)
      (uncancelled : world.cancelled = false) (lands : surroundings.lands tool command landing) :
      Act surroundings world [(id, .hear tool command landing.outcome)]
        ({ world with files := landing.effect world.files }.setPhase id
          (.ready (next landing.outcome)))
  | drop {id : Nat} {tool : Tool} {command : Command} {next : Outcome → Task}
      (flies : world.phase id = .inFlight tool command next) (cancelled : world.cancelled = true) :
      Act surroundings world [(id, .hear tool command (.error .cancelled))]
        (world.setPhase id (.ready (next (.error .cancelled))))

variable {surroundings : Surroundings} {world after : World} {new : List (Nat × Deed)}

/-- What an admitted choice does is an act, which does the deeds of the choice. -/
theorem act_step {choice : Choice} (admits : world.Admits surroundings choice) :
    world.Act surroundings (world.deeds choice) (world.step choice) := by
  cases choice with
  | cancel => exact .cancel admits
  | turn id =>
      simp only [step, turn, deeds]
      cases found : world.threads[id]? with
      | none => exact .rest
      | some thread =>
          have isPhase : world.phase id = thread.phase := by simp [World.phase, found]
          dsimp only
          by_cases stops : thread.aborted && !thread.phase.hasEnded &&
              (!thread.started || thread.phase.isPause)
          · rw [if_pos stops, if_pos stops]
            simp only [Bool.and_eq_true] at stops
            rcases stops with ⟨⟨aborted, goesOn⟩, _⟩
            refine .stop (by simp [World.aborted, found, aborted]) fun ended => ?_
            simp [isPhase.symm.trans ended, Phase.hasEnded] at goesOn
          · rw [if_neg stops, if_neg stops]
            cases phase : thread.phase with
            | ready task => exact .act (isPhase.trans phase)
            | inFlight tool command next => exact .rest
            | ended => exact .rest
            | awaiting others next =>
                cases others with
                | nil =>
                    by_cases none : world.registry = []
                    · simpa [none] using Act.resume (isPhase.trans phase) none
                    · simpa [none] using Act.collect (isPhase.trans phase)
                | cons other others =>
                    by_cases ended : world.hasEnded other = true
                    · simpa [ended] using Act.skip (isPhase.trans phase) ended
                    · simpa [ended] using Act.rest
  | land id landing =>
      simp only [step, World.land, deeds]
      cases flies : world.phase id with
      | inFlight tool command next =>
          cases cancelled : world.cancelled with
          | true => simpa [cancelled] using Act.drop flies cancelled
          | false =>
              simpa [cancelled] using Act.land flies landing cancelled (admits _ _ _ flies)
      | _ => exact .rest

/-- An act is a move. -/
theorem Act.move (act : world.Act surroundings new after) : ∃ exits, world.Move exits after := by
  cases act with
  | rest => exact ⟨_, .rest⟩
  | cancel allowed => exact ⟨_, .cancel⟩
  | stop aborted goesOn => exact ⟨_, .stop aborted goesOn⟩
  | act ready => exact ⟨_, .act ready⟩
  | collect waits => exact ⟨_, .collect waits⟩
  | resume waits none => exact ⟨_, .resume waits none⟩
  | skip waits ended => exact ⟨_, .skip waits ended⟩
  | land flies landing uncancelled lands =>
      cases outcome : landing.outcome with
      | error error => exact ⟨_, .fail flies error _⟩
      | ok result => exact ⟨_, .exit flies result _ uncancelled⟩
  | drop flies cancelled => exact ⟨_, .fail flies .cancelled world.files⟩

/-- What an act is to one thread: it gets from a phase to another by deeds of its own. -/
inductive Turn (surroundings : Surroundings) (world : World) (id : Nat) :
    Phase → List Deed → Phase → Prop where
  | rest {phase : Phase} : Turn surroundings world id phase [] phase
  | stop {phase : Phase} (aborted : world.aborted id = true) :
      Turn surroundings world id phase [] .ended
  | step {task : Task} :
      Turn surroundings world id (.ready task) (task.deeds world) (task.after world)
  | attend {others more : List Nat} {next : Task} :
      Turn surroundings world id (.awaiting others next) [] (.awaiting more next)
  | resume {next : Task} :
      Turn surroundings world id (.awaiting [] next) [.wait] (.ready next)
  | hear {tool : Tool} {command : Command} {next : Outcome → Task} {outcome : Outcome}
      (heard : (∃ landing, surroundings.lands tool command landing ∧ landing.outcome = outcome) ∨
        world.cancelled = true) :
      Turn surroundings world id (.inFlight tool command next) [.hear tool command outcome]
        (.ready (next outcome))

/-- To each thread an act is a turn, unless it starts that thread. -/
theorem Act.turn (act : world.Act surroundings new after) (id : Nat) :
    world.Turn surroundings id (world.phase id) (own id new) (after.phase id) ∨
      id = world.threads.length ∧ own id new = [] ∧ ∃ actor child next,
        world.phase actor = .ready (.spawn child next) ∧ after.phase actor = .ready next ∧
          after.phase id = .ready child := by
  -- An act that gives one thread another phase is a turn of that thread, and rest for the others.
  have changed {actor : Nat} {phase : Phase} {changed : World} (deeds : List Deed)
      (threads : changed.threads = world.threads) (exists_ : actor < world.threads.length)
      (turn : world.Turn surroundings actor (world.phase actor) deeds phase) :
      world.Turn surroundings id (world.phase id) (own id (deeds.map (actor, ·)))
        ((changed.setPhase actor phase).phase id) := by
    by_cases same : id = actor
    · subst same
      rw [own_map_self, phase_setPhase_self (threads ▸ exists_)]
      exact turn
    · have isPhase : (changed.setPhase actor phase).phase id = world.phase id :=
        (phase_setPhase_of_ne same phase).trans (phase_of_threads (by rw [threads]))
      rw [own_map_of_ne same, isPhase]
      exact .rest
  cases act with
  | rest => exact .inl .rest
  | cancel allowed => exact .inl .rest
  | stop aborted goesOn =>
      exact .inl (changed [] rfl (lt_of_phase rfl goesOn) (.stop aborted))
  | @act actor task ready =>
      have exists_ := lt_of_phase ready (by simp)
      rcases phase_takeStep exists_ task id with
        ⟨different, same⟩ | ⟨same, stepped⟩ | ⟨isNew, child, next, rfl, born⟩
      · rw [own_map_of_ne different, same]
        exact .inl .rest
      · subst same
        rw [own_map_self, stepped, ready]
        exact .inl .step
      · have different : id ≠ actor := by omega
        exact .inr ⟨isNew, own_map_of_ne different _, actor, child, next, ready,
          phase_takeStep_self exists_ _, born⟩
  | collect waits =>
      exact .inl (changed [] rfl (lt_of_phase waits (by simp)) (waits ▸ .attend))
  | resume waits none =>
      exact .inl (changed [_] rfl (lt_of_phase waits (by simp)) (waits ▸ .resume))
  | skip waits ended =>
      exact .inl (changed [] rfl (lt_of_phase waits (by simp)) (waits ▸ .attend))
  | land flies landing uncancelled lands =>
      exact .inl (changed [_] rfl (lt_of_phase flies (by simp))
        (flies ▸ .hear (.inl ⟨landing, lands, rfl⟩)))
  | drop flies cancelled =>
      exact .inl (changed [_] rfl (lt_of_phase flies (by simp))
        (flies ▸ .hear (.inr cancelled)))

/-- What holds of a world and an empty record, and is kept by every act that a run from that world
on may come to, holds of the world after every such run and its record. -/
theorem holds_of_acts (property : World → List (Nat × Deed) → Prop) {start : World}
    (initial : property start [])
    (kept : ∀ {earlier new after}, start.Within surroundings earlier →
      (start.run earlier).Act surroundings new after →
      property (start.run earlier) (start.record earlier) →
      property after (start.record earlier ++ new))
    {choices : List Choice} (within : start.Within surroundings choices) :
    property (start.run choices) (start.record choices) := by
  induction choices using List.reverseRecOn with
  | nil => exact initial
  | append_singleton earlier choice ih =>
      rcases within_append.1 within with ⟨earlierWithin, last⟩
      have holds := kept earlierWithin (act_step last.1) (ih earlierWithin)
      rw [run_append, record_append]
      simpa [run, record] using holds

end World

/-- A report or a deed without regard to progress and contents: a status or a log. -/
inductive Note where
  | status (message : Text)
  | log (text : Text) (isError : Bool)
deriving DecidableEq, Repr

def Report.note? : Report → Option Note
  | status message _ => some (.status message)
  | log text isError => some (.log text isError)
  | content _ _ => none

/-- The statuses and logs among reports. -/
def notes (reports : List Report) : List Note := reports.filterMap Report.note?

@[simp]
theorem notes_append (earlier new : List Report) :
    notes (earlier ++ new) = notes earlier ++ notes new := by
  simp [notes]

namespace Deed

def note? : Deed → Option Note
  | status message | conclude message => some (.status message)
  | log text isError => some (.log text isError)
  | _ => none

/-- The tool that is asked for. -/
def asked? : Deed → Option Launch
  | launch tool command => some ⟨tool, command, false⟩
  | refuse tool command => some ⟨tool, command, true⟩
  | _ => none

/-- The tool that has exited, with what it leaves behind. -/
def exit? : Deed → Option (Tool × ToolResult)
  | hear tool _ (.ok result) => some (tool, result)
  | _ => none

/-- The error of a change of the files, if there is one. -/
def change? : Deed → Option (Option OsError)
  | change error => some error
  | _ => none

end Deed

/-- What the changes of the files among deeds have come to. -/
def changes (deeds : List Deed) : List (Option OsError) := deeds.filterMap Deed.change?

@[simp]
theorem changes_append (earlier new : List Deed) :
    changes (earlier ++ new) = changes earlier ++ changes new := by
  simp [changes]

theorem Task.notes_reported (world : World) (task : Task) :
    notes (task.reported world) = (task.deeds world).filterMap Deed.note? := by
  cases task with
  | deliver view content next =>
      simp only [reported, deeds]
      split <;> rfl
  | call tool command next =>
      simp only [reported, deeds]
      split <;> rfl
  | _ => rfl

theorem Task.asked_deeds (world : World) (id : Nat) (task : Task) :
    (world.takeStep id task).launches =
      world.launches ++ (task.deeds world).filterMap Deed.asked? := by
  cases task with
  | call tool command next =>
      by_cases cancelled : world.cancelled <;>
        simp [World.takeStep, deeds, cancelled, World.setPhase, Deed.asked?]
  | deliver view content next =>
      simp only [World.takeStep, World.deliver, deeds]
      split <;> simp [World.setPhase, Deed.asked?]
  | change action next =>
      simp only [World.takeStep, World.change, deeds]
      split <;> simp [World.setPhase, Deed.asked?]
  | _ =>
      simp [World.takeStep, deeds, World.setPhase, World.reportStatus, World.report,
        World.abortAll, Deed.asked?]

namespace World

variable {surroundings : Surroundings} (task : Task) (steps : Nat) (files : FileTree)
  {choices : List Choice}

/-- What a run notes is what its threads have noted. -/
theorem notes_run (choices : List Choice) : notes ((new task steps files).run choices).reports =
    ((new task steps files).record choices).filterMap fun entry => entry.2.note? := by
  refine holds_of_acts (fun world record => notes world.reports =
    record.filterMap fun entry => entry.2.note?) rfl ?_ (within_any _ choices)
  intro earlier new after _ act known
  rw [List.filterMap_append, ← known]
  cases act with
  | @act id task ready =>
      rw [reports_takeStep, notes_append, task.notes_reported, List.filterMap_map]
      rfl
  | _ => exact (List.append_nil _).symm

/-- The tools that a run has asked for are those that its threads have asked for. -/
theorem launches_run (choices : List Choice) : ((new task steps files).run choices).launches =
    ((new task steps files).record choices).filterMap fun entry => entry.2.asked? := by
  refine holds_of_acts (fun world record => world.launches =
    record.filterMap fun entry => entry.2.asked?) rfl ?_ (within_any _ choices)
  intro earlier new after _ act known
  rw [List.filterMap_append, ← known]
  cases act with
  | @act id task ready =>
      rw [task.asked_deeds, List.filterMap_map]
      rfl
  | _ => exact (List.append_nil _).symm

/-- The tools that exit in a run are those that its threads hear of. -/
theorem exits_run (world : World) (choices : List Choice) :
    world.exits choices = (world.record choices).filterMap fun entry => entry.2.exit? := by
  induction choices generalizing world with
  | nil => rfl
  | cons choice choices ih =>
      rw [exits, record, List.filterMap_append, ih]
      refine congrArg (· ++ _) ?_
      cases choice with
      | cancel => rfl
      | land id landing =>
          simp only [World.exit?, deeds]
          cases world.phase id with
          | inFlight tool command next =>
              cases world.cancelled with
              | true => rfl
              | false =>
                  cases landing.outcome <;> rfl
          | _ => rfl
      | turn id =>
          simp only [World.exit?, deeds]
          cases world.threads[id]? with
          | none => rfl
          | some thread =>
              dsimp only
              split
              · rfl
              · split
                case h_1 task _ =>
                  rw [List.filterMap_map]
                  cases task with
                  | call tool command next =>
                      simp only [Task.deeds]
                      split <;> rfl
                  | _ => rfl
                case h_2 => split <;> rfl
                all_goals rfl

end World

end CompiledViews
