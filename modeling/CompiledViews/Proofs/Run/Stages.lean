import CompiledViews.Proofs.Run.Move

/-!
# The stages of a run

The main thread of a run leads at first: it may start threads, and waits for all of them in the end.
Then it closes, alone: it comes to the last status and reports it. After that it only fills, with
empty contents. The threads beside it neither start threads nor report a last status.

A run that begins so stays so, whatever is chosen to happen: while the main thread closes or fills
no other thread is there that could report anything.
-/

namespace CompiledViews

namespace Task

/-- What a thread beside the main one may do. -/
def Forked : Task → Prop
  | done => True
  | update _ next | advance _ _ next | log _ _ next | pause next => next.Forked
  | deliver _ content next => content ≠ .empty ∧ next.Forked
  | askCancelled next => ∀ answer, (next answer).Forked
  | call _ _ next => ∀ outcome, (next outcome).Forked
  | change _ next => ∀ error, (next error).Forked
  | look next => ∀ tree, (next tree).Forked
  | skipToEnd _ _ | spawn _ _ | abortAll _ | awaitAll _ => False

/-- What the main thread may do after the last status. -/
def Fills : Task → Prop
  | done => True
  | deliver _ content next => content = .empty ∧ next.Fills
  | awaitAll next => next.Fills
  | _ => False

variable (ending : Text → Prop)

/-- What the main thread may do up to the last status, of which the message is a possible ending,
once the other threads have ended. -/
def Closes : Task → Prop
  | skipToEnd message next => ending message ∧ next.Fills
  | log _ _ next => next.Closes
  | askCancelled next => ∀ answer, (next answer).Closes
  | _ => False

/-- What the main thread may do up to the point where it has waited for the others. -/
def Leads : Task → Prop
  | update _ next | advance _ _ next | log _ _ next | abortAll next | pause next => next.Leads
  | deliver _ content next => content ≠ .empty ∧ next.Leads
  | spawn child next => child.Forked ∧ next.Leads
  | awaitAll next => next.Closes ending
  | askCancelled next => ∀ answer, (next answer).Leads
  | call _ _ next => ∀ outcome, (next outcome).Leads
  | change _ next => ∀ error, (next error).Leads
  | look next => ∀ tree, (next tree).Leads
  | done | skipToEnd _ _ => False

end Task

namespace Phase

/-- The phase of a thread beside the main one. -/
def Forked : Phase → Prop
  | ready task => task.Forked
  | inFlight _ _ next => ∀ outcome, (next outcome).Forked
  | awaiting _ _ => False
  | ended => True

/-- The phase of the main thread after the last status. -/
def Fills : Phase → Prop
  | ready task | awaiting _ task => task.Fills
  | inFlight _ _ _ => False
  | ended => True

/-- The threads that a thread waits for in a phase. -/
def others : Phase → List Nat
  | awaiting others _ => others
  | _ => []

variable (ending : Text → Prop)

/-- The phase of the main thread up to the last status, once the others have ended. -/
def Closes : Phase → Prop
  | ready task => task.Closes ending
  | _ => False

/-- The phase of the main thread up to the point where it has waited for the others. -/
def Leads : Phase → Prop
  | ready task => task.Leads ending
  | inFlight _ _ next => ∀ outcome, (next outcome).Leads ending
  | awaiting _ next => next.Closes ending
  | ended => False

end Phase

namespace Task

variable {ending : Text → Prop} {task : Task} (world : World)

theorem Forked.after (forked : task.Forked) : (task.after world).Forked := by
  cases task with
  | call tool command next =>
      rw [after_call]
      split
      · exact forked _
      · exact forked
  | deliver view content next => exact forked.2
  | askCancelled next => exact forked _
  | change action next => exact forked _
  | look next => exact forked _
  | skipToEnd | spawn | abortAll | awaitAll => exact False.elim forked
  | _ => exact forked

theorem Leads.after (leads : task.Leads ending) : (task.after world).Leads ending := by
  cases task with
  | call tool command next =>
      rw [after_call]
      split
      · exact leads _
      · exact leads
  | deliver view content next => exact leads.2
  | spawn child next => exact leads.2
  | askCancelled next => exact leads _
  | change action next => exact leads _
  | look next => exact leads _
  | skipToEnd => exact False.elim leads
  | _ => exact leads

theorem Forked.spawned (forked : task.Forked) : task.spawned world = [] := by
  cases task <;> first | rfl | exact False.elim forked

theorem Forked.unfilled (forked : task.Forked) (view : View) :
    .content view .empty ∉ task.reported world := by
  intro isReported
  rcases deliver_of_reported isReported with ⟨next, rfl⟩
  exact forked.1 rfl

theorem Leads.unfilled (leads : task.Leads ending) (view : View) :
    .content view .empty ∉ task.reported world := by
  intro isReported
  rcases deliver_of_reported isReported with ⟨next, rfl⟩
  exact leads.1 rfl

theorem others_after : (task.after world).others = [] := by
  cases task with
  | call tool command next =>
      rw [after_call]
      split <;> rfl
  | _ => rfl

end Task

/-- Reports of which the last status has a possible ending for its message and reports all steps as
done, and is followed by nothing but empty contents. -/
def Concluded (ending : Text → Prop) (reports : List Report) : Prop :=
  ∃ before message progress after, reports = before ++ Report.status message progress :: after ∧
    ending message ∧ progress.total ≤ progress.step ∧
    ∀ report ∈ after, ∃ view, report = .content view .empty

theorem Concluded.append {ending : Text → Prop} {reports new : List Report}
    (concluded : Concluded ending reports)
    (empties : ∀ report ∈ new, ∃ view, report = .content view .empty) :
    Concluded ending (reports ++ new) := by
  rcases concluded with ⟨before, message, progress, after, rfl, isEnding, all, onlyEmpties⟩
  refine ⟨before, message, progress, after ++ new, by simp, isEnding, all, fun report member => ?_⟩
  exact (List.mem_append.1 member).elim (onlyEmpties report) (empties report)

namespace World

variable (ending : Text → Prop) (world : World)

/-- The threads that the main thread has to wait for. -/
def awaited : List Nat := (world.phase 0).others ++ world.registry

/-- No thread but the main one goes on. -/
def Alone : Prop := ∀ id, id ≠ 0 → world.phase id = .ended

/-- No empty content has been reported. -/
def Unfilled : Prop := ∀ view, .content view .empty ∉ world.reports

/-- Where the main thread is, and what that says about the others and the reports. -/
inductive Stage : Prop where
  | leads (main : (world.phase 0).Leads ending)
      (waited : ∀ id, id ≠ 0 → world.phase id = .ended ∨ id ∈ world.awaited)
      (unfilled : world.Unfilled)
  | closes (main : (world.phase 0).Closes ending) (alone : world.Alone)
      (unfilled : world.Unfilled)
  | fills (main : (world.phase 0).Fills) (alone : world.Alone)
      (concluded : Concluded ending world.reports)

/-- A run in good order. -/
structure Orderly : Prop where
  exists_main : 0 < world.threads.length
  forked : ∀ id, id ≠ 0 → (world.phase id).Forked
  goesOn : world.aborted 0 = false
  notAwaited : 0 ∉ world.awaited
  stage : world.Stage ending

variable {ending world} {after : World}

theorem Unfilled.append {new : List Report} (unfilled : world.Unfilled)
    (reports : after.reports = world.reports ++ new)
    (noneEmpty : ∀ view, .content view .empty ∉ new) : after.Unfilled := by
  intro view member
  rw [reports, List.mem_append] at member
  exact member.elim (unfilled view) (noneEmpty view)

theorem awaited_of_phase (phase : after.phase 0 = world.phase 0)
    (registry : after.registry = world.registry) : after.awaited = world.awaited := by
  simp [awaited, phase, registry]

theorem awaited_setPhase_main (exists_ : 0 < world.threads.length) (phase : Phase) :
    (world.setPhase 0 phase).awaited = phase.others ++ world.registry := by
  rw [awaited, phase_setPhase_self exists_]
  rfl

/-- A step makes the main thread await the thread that it starts, and no other. -/
theorem awaited_takeStep {id : Nat} {task : Task} (ready : world.phase id = .ready task) :
    (world.takeStep id task).awaited = world.awaited ++ task.spawned world := by
  have exists_ := lt_of_phase ready (by simp)
  suffices ((world.takeStep id task).phase 0).others = (world.phase 0).others by
    rw [awaited, this, registry_takeStep, ← List.append_assoc]
    rfl
  rcases phase_takeStep exists_ task 0 with ⟨_, same⟩ | ⟨rfl, stepped⟩ | ⟨isNew, _⟩
  · rw [same]
  · rw [stepped, ready, Task.others_after]
    rfl
  · omega

/-- The main thread is not started by a step. -/
theorem main_not_awaited_takeStep {id : Nat} {task : Task} (ready : world.phase id = .ready task)
    (notAwaited : 0 ∉ world.awaited) : 0 ∉ (world.takeStep id task).awaited := by
  have exists_ := lt_of_phase ready (by simp)
  rw [awaited_takeStep ready, List.mem_append]
  rintro (before | spawned)
  · exact notAwaited before
  · cases task <;> simp [Task.spawned] at spawned
    omega

namespace Orderly

/-- While a thread beside the main one goes on, the main thread leads and waits for it. -/
theorem leads_of_fork (orderly : world.Orderly ending) {id : Nat} (isFork : id ≠ 0)
    (goesOn : world.phase id ≠ .ended) :
    (world.phase 0).Leads ending ∧ id ∈ world.awaited ∧
      (∀ id, id ≠ 0 → world.phase id = .ended ∨ id ∈ world.awaited) ∧ world.Unfilled := by
  cases orderly.stage with
  | leads main waited unfilled =>
      exact ⟨main, (waited id isFork).resolve_left goesOn, waited, unfilled⟩
  | closes main alone unfilled => exact absurd (alone id isFork) goesOn
  | fills main alone concluded => exact absurd (alone id isFork) goesOn

/-- A thread beside the main one changes nothing but its phase, and adds no empty contents. -/
theorem of_fork (orderly : world.Orderly ending) {id : Nat} (isFork : id ≠ 0)
    (goesOn : world.phase id ≠ .ended) {new : List Report}
    (length : after.threads.length = world.threads.length)
    (others : ∀ other, other ≠ id → after.phase other = world.phase other)
    (forked : (after.phase id).Forked) (aborted : after.aborted 0 = false)
    (registry : after.registry = world.registry)
    (reports : after.reports = world.reports ++ new)
    (noneEmpty : ∀ view, .content view .empty ∉ new) : after.Orderly ending := by
  rcases orderly.leads_of_fork isFork goesOn with ⟨main, awaits, waited, unfilled⟩
  have mainPhase := others 0 isFork.symm
  have awaited := awaited_of_phase mainPhase registry
  refine ⟨length ▸ orderly.exists_main, fun other isOther => ?_, aborted,
    awaited ▸ orderly.notAwaited, .leads (mainPhase ▸ main) (fun other isOther => ?_)
      (unfilled.append reports noneEmpty)⟩
  · by_cases same : other = id
    · exact same ▸ forked
    · exact others other same ▸ orderly.forked other isOther
  · by_cases same : other = id
    · exact .inr (same ▸ awaited ▸ awaits)
    · rw [others other same, awaited]
      exact waited other isOther

theorem takeStep_fork (orderly : world.Orderly ending) {id : Nat} {task : Task}
    (isFork : id ≠ 0) (ready : world.phase id = .ready task) :
    (world.takeStep id task).Orderly ending := by
  have forked : task.Forked := by simpa [ready, Phase.Forked] using orderly.forked id isFork
  have exists_ := lt_of_phase ready (by simp)
  refine orderly.of_fork isFork (by simp [ready]) ?_ (fun other different => ?_) ?_ ?_ ?_
    (reports_takeStep world id task) (forked.unfilled world)
  · simp [length_takeStep, forked.spawned]
  · rcases phase_takeStep exists_ task other with ⟨_, same⟩ | ⟨same, _⟩ | ⟨_, child, next, rfl, _⟩
    · exact same
    · exact absurd same different
    · exact forked.elim
  · rw [phase_takeStep_self exists_]
    exact forked.after world
  · by_contra aborted
    rcases aborted_takeStep (by simpa using aborted) with before | ⟨⟨next, rfl⟩, _⟩
    · simp [orderly.goesOn] at before
    · exact forked.elim
  · simp [registry_takeStep, forked.spawned]

/-- In a step of the main thread the others stay as they are, and a thread that it starts is one
that it may start. -/
theorem takeStep_main_others (orderly : world.Orderly ending) {task : Task}
    (ready : world.phase 0 = .ready task)
    (child : ∀ child next, task = .spawn child next → child.Forked) :
    0 < (world.takeStep 0 task).threads.length ∧
      (∀ id, id ≠ 0 → ((world.takeStep 0 task).phase id).Forked) ∧
      (world.takeStep 0 task).aborted 0 = false ∧ 0 ∉ (world.takeStep 0 task).awaited ∧
      (world.takeStep 0 task).awaited = world.awaited ++ task.spawned world := by
  have exists_ := orderly.exists_main
  have awaited_before : world.awaited = world.registry := by simp [awaited, ready, Phase.others]
  refine ⟨by rw [length_takeStep]; omega, fun id isFork => ?_, ?_,
    main_not_awaited_takeStep ready orderly.notAwaited, awaited_takeStep ready⟩
  · rcases phase_takeStep exists_ task id with ⟨_, same⟩ | ⟨same, _⟩ | ⟨_, _, next, rfl, born⟩
    · exact same ▸ orderly.forked id isFork
    · exact absurd same isFork
    · rw [born]
      exact child _ next rfl
  · by_contra aborted
    rcases aborted_takeStep (by simpa using aborted) with before | ⟨_, registered⟩
    · simp [orderly.goesOn] at before
    · exact orderly.notAwaited (awaited_before ▸ registered)

theorem takeStep_main (orderly : world.Orderly ending) {task : Task}
    (ready : world.phase 0 = .ready task) : (world.takeStep 0 task).Orderly ending := by
  have exists_ := orderly.exists_main
  have phase := phase_takeStep_self exists_ task
  have reports := reports_takeStep world 0 task
  have alone_after (alone : world.Alone) (noSpawn : task.spawned world = []) :
      (world.takeStep 0 task).Alone := by
    intro id isFork
    rcases phase_takeStep exists_ task id with ⟨_, same⟩ | ⟨same, _⟩ | ⟨_, child, next, rfl, _⟩
    · exact same.trans (alone id isFork)
    · exact absurd same isFork
    · simp [Task.spawned] at noSpawn
  cases orderly.stage with
  | leads main waited unfilled =>
      have leads : task.Leads ending := by simpa [ready, Phase.Leads] using main
      obtain ⟨inside, forked, goesOn, notAwaited, awaited⟩ :=
        orderly.takeStep_main_others ready fun child next isSpawn => by
          subst isSpawn
          exact leads.1
      refine ⟨inside, forked, goesOn, notAwaited, .leads (phase ▸ leads.after world)
        (fun id isFork => ?_) (unfilled.append reports (leads.unfilled world))⟩
      rw [awaited, List.mem_append]
      rcases phase_takeStep exists_ task id with
        ⟨_, same⟩ | ⟨same, _⟩ | ⟨isNew, child, next, rfl, _⟩
      · exact same ▸ (waited id isFork).imp_right .inl
      · exact absurd same isFork
      · exact .inr (.inr (by simp [Task.spawned, isNew]))
  | closes main alone unfilled =>
      have closes : task.Closes ending := by simpa [ready, Phase.Closes] using main
      obtain ⟨inside, forked, goesOn, notAwaited, _⟩ :=
        orderly.takeStep_main_others ready fun child next isSpawn => by
          subst isSpawn
          exact closes.elim
      refine ⟨inside, forked, goesOn, notAwaited, ?_⟩
      cases task with
      | skipToEnd message next =>
          refine .fills (phase ▸ closes.2) (alone_after alone rfl) ?_
          refine ⟨world.reports, message, world.progress.skipToEnd, [], reports, closes.1, ?_,
            by simp⟩
          exact Nat.le_max_right _ _
      | log text isError next =>
          exact .closes (phase ▸ closes) (alone_after alone rfl)
            (unfilled.append reports (by simp [Task.reported]))
      | askCancelled next =>
          exact .closes (phase ▸ closes world.cancelled) (alone_after alone rfl)
            (unfilled.append reports (by simp [Task.reported]))
      | _ => exact closes.elim
  | fills main alone concluded =>
      have fills : task.Fills := by simpa [ready, Phase.Fills] using main
      obtain ⟨inside, forked, goesOn, notAwaited, _⟩ :=
        orderly.takeStep_main_others ready fun child next isSpawn => by
          subst isSpawn
          exact fills.elim
      have empties : ∀ report ∈ task.reported world, ∃ view, report = .content view .empty := by
        intro report isReported
        cases task with
        | deliver view content next =>
            rcases fills.1 with rfl
            simp only [Task.reported, List.mem_ite_nil_left, List.mem_singleton] at isReported
            exact ⟨view, isReported.2⟩
        | done | awaitAll => simp [Task.reported] at isReported
        | _ => exact fills.elim
      refine ⟨inside, forked, goesOn, notAwaited,
        .fills (phase ▸ ?_) (alone_after alone ?_) (reports ▸ concluded.append empties)⟩
      · cases task with
        | deliver view content next => exact fills.2
        | done | awaitAll => exact fills
        | _ => exact fills.elim
      · cases task <;> first | rfl | exact fills.elim

/-- Where the main thread gets on without a step of its own it has waited for a tool or for
threads. -/
theorem setPhase_main (orderly : world.Orderly ending) {changed : World} {phase : Phase}
    (threads : changed.threads = world.threads) (reports : changed.reports = world.reports)
    (awaited : ∀ id ∈ phase.others ++ changed.registry, id ∈ world.awaited)
    (leads : (world.phase 0).Leads ending →
      phase.Leads ending ∧ (∀ id ∈ world.awaited,
        world.phase id = .ended ∨ id ∈ phase.others ++ changed.registry) ∨
      phase.Closes ending ∧ world.awaited = [])
    (closes : ¬(world.phase 0).Closes ending)
    (fills : (world.phase 0).Fills → phase.Fills) :
    (changed.setPhase 0 phase).Orderly ending := by
  have inside : 0 < changed.threads.length := threads ▸ orderly.exists_main
  have mainPhase := phase_setPhase_self inside phase
  have others {id : Nat} (isFork : id ≠ 0) :
      (changed.setPhase 0 phase).phase id = world.phase id :=
    (phase_setPhase_of_ne isFork phase).trans (phase_of_threads (by rw [threads]))
  have awaited_after := awaited_setPhase_main inside phase
  have unchanged : (changed.setPhase 0 phase).reports = world.reports ++ [] :=
    reports.trans (List.append_nil _).symm
  refine ⟨by simpa using inside, fun id isFork => others isFork ▸ orderly.forked id isFork, ?_,
    fun isAwaited => orderly.notAwaited (awaited 0 (awaited_after ▸ isAwaited)), ?_⟩
  · rw [aborted_setPhase]
    simpa [aborted, threads] using orderly.goesOn
  · cases orderly.stage with
    | leads main waited unfilled =>
        have unfilled := unfilled.append unchanged (by simp)
        rcases leads main with ⟨still, stillAwaited⟩ | ⟨closing, noneAwaited⟩
        · refine .leads (by rwa [mainPhase]) (fun id isFork => ?_) unfilled
          rw [others isFork, awaited_after]
          exact (waited id isFork).elim .inl (stillAwaited id)
        · refine .closes (by rwa [mainPhase]) (fun id isFork => ?_) unfilled
          rw [others isFork]
          exact (waited id isFork).resolve_right (by simp [noneAwaited])
    | closes main alone unfilled => exact absurd main closes
    | fills main alone concluded =>
        refine .fills (by rw [mainPhase]; exact fills main) (fun id isFork => ?_) ?_
        · exact (others isFork).trans (alone id isFork)
        · rw [unchanged, List.append_nil]
          exact concluded

/-- Only the main thread waits for others. -/
theorem eq_main_of_awaiting (orderly : world.Orderly ending) {id : Nat} {others : List Nat}
    {next : Task} (waits : world.phase id = .awaiting others next) : id = 0 := by
  by_contra isFork
  have forked := orderly.forked id isFork
  rw [waits] at forked
  exact forked

/-- A thread gets on after its tool has ended. -/
theorem land (orderly : world.Orderly ending) {id : Nat} {tool : Tool} {command : Command}
    {next : Outcome → Task} (flies : world.phase id = .inFlight tool command next)
    (outcome : Outcome) (files : FileTree) :
    ({ world with files }.setPhase id (.ready (next outcome))).Orderly ending := by
  by_cases isMain : id = 0
  · subst isMain
    have awaited : world.awaited = world.registry := by simp [awaited, flies, Phase.others]
    refine orderly.setPhase_main rfl rfl ?_ (fun leads => .inl ⟨?_, fun id isAwaited => ?_⟩) ?_ ?_
    · simp [awaited, Phase.others]
    · rw [flies] at leads
      exact leads outcome
    · exact .inr (awaited ▸ isAwaited)
    · simp [flies, Phase.Closes]
    · simp [flies, Phase.Fills]
  · have forked := orderly.forked id isMain
    rw [flies] at forked
    have inside := lt_of_phase flies (by simp)
    refine orderly.of_fork isMain (by simp [flies]) (by simp)
      (fun other different => phase_setPhase_of_ne different _) ?_ ?_ rfl
      (List.append_nil _).symm (by simp)
    · rw [phase_setPhase_self (by exact inside)]
      exact forked outcome
    · rw [aborted_setPhase]
      exact orderly.goesOn

/-- A run in good order stays so by every move. -/
theorem move (orderly : world.Orderly ending) {new : List (Tool × ToolResult)}
    (move : world.Move new after) : after.Orderly ending := by
  cases move with
  | rest => exact orderly
  | cancel =>
      rcases orderly with ⟨inside, forked, goesOn, notAwaited, stage⟩
      refine ⟨inside, forked, goesOn, notAwaited, ?_⟩
      cases stage with
      | leads main waited unfilled => exact .leads main waited unfilled
      | closes main alone unfilled => exact .closes main alone unfilled
      | fills main alone concluded => exact .fills main alone concluded
  | @stop id aborted goesOn =>
      have isFork : id ≠ 0 := fun isMain => by simp [isMain, orderly.goesOn] at aborted
      refine orderly.of_fork isFork goesOn (by simp)
        (fun other different => phase_setPhase_of_ne different _) ?_ ?_ rfl
        (List.append_nil _).symm (by simp)
      · rw [phase_setPhase_self (lt_of_phase rfl goesOn)]
        trivial
      · rw [aborted_setPhase]
        exact orderly.goesOn
  | @act id task ready =>
      by_cases isMain : id = 0
      · exact isMain ▸ orderly.takeStep_main (isMain ▸ ready)
      · exact orderly.takeStep_fork isMain ready
  | @collect id next waits =>
      rcases orderly.eq_main_of_awaiting waits with rfl
      have awaited : world.awaited = world.registry := by simp [awaited, waits, Phase.others]
      refine orderly.setPhase_main rfl rfl ?_ (fun leads => .inl ⟨?_, fun id isAwaited => ?_⟩) ?_ ?_
      · simp [awaited, Phase.others]
      · rw [waits] at leads
        exact leads
      · exact .inr (by simpa [awaited, Phase.others] using isAwaited)
      · simp [waits, Phase.Closes]
      · simp [waits, Phase.Fills]
  | @resume id next waits none =>
      rcases orderly.eq_main_of_awaiting waits with rfl
      have awaited : world.awaited = [] := by simp [awaited, waits, none, Phase.others]
      refine orderly.setPhase_main rfl rfl ?_ (fun leads => .inr ⟨?_, awaited⟩) ?_ ?_
      · simp [none, Phase.others]
      · rw [waits] at leads
        exact leads
      · simp [waits, Phase.Closes]
      · simp [waits, Phase.Fills]
  | @skip id other others next waits ended =>
      rcases orderly.eq_main_of_awaiting waits with rfl
      have awaited : world.awaited = other :: (others ++ world.registry) := by
        simp [awaited, waits, Phase.others]
      refine orderly.setPhase_main rfl rfl ?_ (fun leads => .inl ⟨?_, fun id isAwaited => ?_⟩) ?_ ?_
      · rw [awaited]
        exact fun _ => List.mem_cons_of_mem _
      · rw [waits] at leads
        exact leads
      · rw [awaited] at isAwaited
        rcases List.mem_cons.1 isAwaited with rfl | later
        · exact .inl (hasEnded_iff.1 ended)
        · exact .inr later
      · simp [waits, Phase.Closes]
      · simp [waits, Phase.Fills]
  | fail flies error files => exact orderly.land flies (.error error) files
  | exit flies result files uncancelled => exact orderly.land flies (.ok result) files

end Orderly

theorem orderly_new {task : Task} (leads : task.Leads ending) (steps : Nat) (files : FileTree) :
    (new task steps files).Orderly ending where
  exists_main := by simp [new]
  forked id isFork := by
    rcases Nat.exists_eq_succ_of_ne_zero isFork with ⟨before, rfl⟩
    trivial
  goesOn := rfl
  notAwaited := by simp [awaited, new, phase, Phase.others, Thread.new]
  stage := by
    refine .leads leads (fun id isFork => .inl ?_) (by simp [Unfilled, new])
    rcases Nat.exists_eq_succ_of_ne_zero isFork with ⟨before, rfl⟩
    rfl

/-- A run whose main thread leads is in good order at every point. -/
theorem orderly_run {task : Task} (leads : task.Leads ending) (steps : Nat) (files : FileTree)
    (choices : List Choice) : ((new task steps files).run choices).Orderly ending :=
  holds_of_moves (fun world _ => world.Orderly ending) (orderly_new leads steps files)
    (fun move orderly => orderly.move move) choices

end World

end CompiledViews
