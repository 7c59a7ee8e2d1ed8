import CompiledViews.Proofs.Run.Ending
import CompiledViews.Proofs.Run.Pipeline
import Mathlib.Algebra.Order.Field.Rat

/-!
# The progress of a run

A run whose task advances by no more steps in all than there are never counts past its total: what
has been counted and what may still be advanced stay within it, up to the last status, which comes
when there is nothing left to advance. As the count goes up only, so does the reported part of the
steps.
-/

namespace CompiledViews

namespace Progress

/-- The part of the steps that is reported as done. -/
def share (progress : Progress) : ℚ := progress.reached / progress.total

theorem share_le_share {earlier later : Progress} (total : earlier.total = later.total)
    (step : earlier.step ≤ later.step) : earlier.share ≤ later.share := by
  have reached : earlier.reached ≤ later.reached := by
    simp only [reached]
    omega
  rw [share, share, total]
  exact div_le_div_of_nonneg_right (by exact_mod_cast reached) (Nat.cast_nonneg _)

theorem share_eq_one {progress : Progress} (positive : 0 < progress.total)
    (all : progress.total ≤ progress.step) : progress.share = 1 := by
  have reached : progress.reached = progress.total := Nat.min_eq_right all
  rw [share, reached]
  exact div_self (by exact_mod_cast positive.ne')

end Progress

/-- The progress that a report tells, if it is a status. -/
def Report.progress? : Report → Option Progress
  | status _ progress => some progress
  | _ => none

/-- The progress that reports tell, status by status. -/
def progresses (reports : List Report) : List Progress := reports.filterMap Report.progress?

@[simp]
theorem progresses_append (earlier new : List Report) :
    progresses (earlier ++ new) = progresses earlier ++ progresses new := by
  simp [progresses]

/-- Steps of the progress have to be paid for, and nothing else. -/
def Price.steps : Price := ⟨fun count => count, fun _ => 0⟩

namespace Task

variable {task : Task}

@[simp]
theorem total_progressed (progress : Progress) :
    (task.progressed progress).total = progress.total := by
  cases task <;> rfl

theorem le_step_progressed {progress : Progress} (small : progress.step ≤ maxSteps) :
    progress.step ≤ (task.progressed progress).step := by
  cases task with
  | advance message count next => exact Nat.le_min.2 ⟨Nat.le_add_right _ _, small⟩
  | skipToEnd message next => exact Nat.le_max_left _ _
  | _ => exact Nat.le_refl _

/-- A step reports the progress that it leads to, if any. -/
theorem eq_progressed_of_reported {world : World} {progress : Progress}
    (isReported : progress ∈ progresses (task.reported world)) :
    progress = task.progressed world.progress := by
  cases task with
  | deliver view content next =>
      simp only [reported] at isReported
      split at isReported <;> simp [progresses, Report.progress?] at isReported
  | update | advance | skipToEnd =>
      simpa [reported, progresses, Report.progress?, progressed] using isReported
  | _ => simp [reported, progresses, Report.progress?] at isReported

end Task

namespace World

variable {ending : Text → Prop} {world after : World} {total : Nat}

/-- Only the main thread reports a last status, when it is alone and nothing but filling is left. -/
theorem Orderly.fills_of_skipToEnd (orderly : world.Orderly ending) {id : Nat} {message : Text}
    {next : Task} (ready : world.phase id = .ready (.skipToEnd message next)) :
    id = 0 ∧ next.Fills ∧ world.Alone := by
  by_cases isMain : id = 0
  · subst isMain
    cases orderly.stage with
    | leads main waited unfilled =>
        rw [ready] at main
        exact main.elim
    | closes main alone unfilled =>
        rw [ready] at main
        exact ⟨rfl, main.2, alone⟩
    | fills main alone concluded =>
        rw [ready] at main
        exact main.elim
  · have forked := orderly.forked id isMain
    rw [ready] at forked
    exact forked.elim

/-- A run that counts within its total. -/
structure Metered (total : Nat) (world : World) : Prop where
  total_eq : world.progress.total = total
  within : world.progress.step + world.cost .steps ≤ total
  reported : ∀ progress ∈ progresses world.reports,
    progress.total = total ∧ progress.step ≤ world.progress.step
  ascending : (progresses world.reports).Pairwise fun earlier later => earlier.step ≤ later.step

theorem Metered.step_le (metered : world.Metered total) : world.progress.step ≤ total := by
  have within := le_self_add.trans metered.within
  exact_mod_cast within

/-- The count after a step and what may still be advanced stay within the total. -/
theorem Metered.within_takeStep (metered : world.Metered total) (orderly : world.Orderly ending)
    {id : Nat} {task : Task} (ready : world.phase id = .ready task) :
    (world.takeStep id task).progress.step + (world.takeStep id task).cost .steps ≤ total := by
  rw [progress_takeStep]
  cases task with
  | skipToEnd message next =>
      rcases orderly.fills_of_skipToEnd ready with ⟨rfl, fills, alone⟩
      have alone_after : (world.setPhase 0 (.ready next)).Alone := fun id isFork =>
        (phase_setPhase_of_ne isFork _).trans (alone id isFork)
      have fills_after : ((world.setPhase 0 (.ready next)).phase 0).Fills := by
        rw [phase_setPhase_self orderly.exists_main]
        exact fills
      have nothing := cost_eq_zero .steps alone_after fills_after
      rw [cost_takeStep ready]
      simp only [Task.after, Task.childCost, nothing, add_zero]
      have step : (world.progress.skipToEnd).step = total := by
        have within := metered.step_le
        simp only [Progress.skipToEnd, metered.total_eq]
        omega
      exact_mod_cast step.le
  | advance message count next =>
      have paid := cost_takeStep_add_le .steps ready
      have step : (world.progress.advance count).step ≤ world.progress.step + count :=
        Nat.min_le_left _ _
      calc ((world.progress.advance count).step : ℕ∞) +
            (world.takeStep id (.advance message count next)).cost .steps
          ≤ world.progress.step + count +
              (world.takeStep id (.advance message count next)).cost .steps := by
            gcongr
            exact_mod_cast step
        _ = world.progress.step +
              ((world.takeStep id (.advance message count next)).cost .steps + count) := by
            rw [add_assoc, add_comm (count : ℕ∞)]
        _ ≤ world.progress.step + world.cost .steps := by
            gcongr
            exact paid
        _ ≤ total := metered.within
  | _ =>
      have paid := le_self_add.trans (cost_takeStep_add_le .steps ready)
      exact (add_le_add_right paid _).trans metered.within

theorem Metered.takeStep (metered : world.Metered total) (orderly : world.Orderly ending)
    (small : total ≤ maxSteps) {id : Nat} {task : Task} (ready : world.phase id = .ready task) :
    (world.takeStep id task).Metered total := by
  have grows : world.progress.step ≤ (task.progressed world.progress).step :=
    Task.le_step_progressed (metered.step_le.trans small)
  have progress := progress_takeStep world id task
  refine ⟨?_, metered.within_takeStep orderly ready, ?_, ?_⟩
  · rw [progress, Task.total_progressed]
    exact metered.total_eq
  · intro reported isReported
    rw [reports_takeStep, progresses_append, List.mem_append] at isReported
    rw [progress]
    rcases isReported with earlier | new
    · rcases metered.reported reported earlier with ⟨total_eq, step_le⟩
      exact ⟨total_eq, step_le.trans grows⟩
    · rcases Task.eq_progressed_of_reported new with rfl
      exact ⟨(Task.total_progressed _).trans metered.total_eq, le_rfl⟩
  · rw [reports_takeStep, progresses_append]
    refine List.pairwise_append.2 ⟨metered.ascending, ?_, fun earlier isEarlier later isLater => ?_⟩
    · refine List.Pairwise.imp_of_mem ?_ (List.pairwise_of_forall fun _ _ => trivial)
      intro earlier later isEarlier isLater _
      rw [Task.eq_progressed_of_reported isEarlier, Task.eq_progressed_of_reported isLater]
    · rw [Task.eq_progressed_of_reported isLater]
      exact (metered.reported earlier isEarlier).2.trans grows

theorem Metered.move (metered : world.Metered total) (orderly : world.Orderly ending)
    (small : total ≤ maxSteps) {new : List (Tool × ToolResult)} (move : world.Move new after) :
    after.Metered total := by
  have unpaid := le_self_add.trans (move.cost_add_le .steps)
  have within {changed : World} (progress : changed.progress = world.progress)
      (cheaper : changed.cost .steps ≤ world.cost .steps) :
      changed.progress.step + changed.cost .steps ≤ total := by
    rw [progress]
    exact (add_le_add_right cheaper _).trans metered.within
  cases move with
  | act ready => exact metered.takeStep orderly small ready
  | _ => exact ⟨metered.total_eq, within rfl unpaid, metered.reported, metered.ascending⟩

theorem metered_new {task : Task} {steps : Nat} (cost : task.cost .steps ≤ steps)
    (positive : 0 < steps) (files : FileTree) : (new task steps files).Metered steps where
  total_eq := Nat.max_eq_left positive
  within := by simpa [new, Progress.ofTotal, World.cost, Thread.new, Phase.cost] using cost
  reported := by simp [new, progresses]
  ascending := by simp [new, progresses]

theorem metered_run {task : Task} {steps : Nat} (leads : task.Leads ending)
    (cost : task.cost .steps ≤ steps) (positive : 0 < steps) (small : steps ≤ maxSteps)
    (files : FileTree) (choices : List Choice) :
    ((new task steps files).run choices).Metered steps := by
  suffices ((new task steps files).run choices).Orderly ending ∧
      ((new task steps files).run choices).Metered steps from this.2
  refine holds_of_moves (fun world _ => world.Orderly ending ∧ world.Metered steps)
    ⟨orderly_new leads steps files, metered_new cost positive files⟩ ?_ choices
  intro world after _ _ move ⟨orderly, metered⟩
  exact ⟨orderly.move move, metered.move orderly small move⟩

/-- What a world says about the progress of its run: the reported part of the steps never goes
down, and the count never passes the total. When the main thread is at its end, all steps are
reported as done by a status that tells of success or begins with an error, and nothing but empty
contents come after that; and there always are choices that lead there. -/
structure TellsProgress (total : Nat) (success : Text) (world : World) : Prop where
  ascending : ((progresses world.reports).map Progress.share).Pairwise (· ≤ ·)
  within : ∀ progress ∈ progresses world.reports, progress.total = total ∧ progress.step ≤ total
  concluded : world.hasEnded 0 = true → ∃ before message progress after,
    world.reports = before ++ Report.status message progress :: after ∧ progress.share = 1 ∧
      (message = success ∨ Text.startsWith message "Error" = true) ∧
      ∀ report ∈ after, ∃ view, report = .content view .empty
  ends : ∃ rest, (world.run rest).hasEnded 0 = true

theorem Metered.tellsProgress {success : Text} (metered : world.Metered total)
    (orderly : world.Orderly (Ending success)) (positive : 0 < total) :
    world.TellsProgress total success where
  ascending := by
    refine List.pairwise_map.2 (metered.ascending.imp_of_mem ?_)
    intro earlier later isEarlier isLater step
    refine Progress.share_le_share ?_ step
    rw [(metered.reported earlier isEarlier).1, (metered.reported later isLater).1]
  within progress isReported := by
    rcases metered.reported progress isReported with ⟨total_eq, step⟩
    exact ⟨total_eq, step.trans metered.step_le⟩
  concluded ended := by
    have isEnded := hasEnded_iff.1 ended
    cases orderly.stage with
    | leads main waited unfilled =>
        rw [isEnded] at main
        exact main.elim
    | closes main alone unfilled =>
        rw [isEnded] at main
        exact main.elim
    | fills main alone concluded =>
        rcases concluded with ⟨before, message, progress, after, reports, isEnding, all, empties⟩
        have isReported : progress ∈ progresses world.reports := by
          simp [reports, progresses, Report.progress?]
        have total_eq := (metered.reported progress isReported).1
        exact ⟨before, message, progress, after, reports,
          Progress.share_eq_one (total_eq ▸ positive) all, isEnding, empties⟩
  ends := orderly.exists_ended

/-- Both runs of the pipeline tell their progress, whatever is chosen to happen. -/
theorem tellsProgress_of_pipeline (pipeline : Pipeline) (source : Text) (files : FileTree)
    (choices : List Choice) :
    ((new (pipeline.disassemble source) disassemblySteps files).run choices).TellsProgress 7
        "Ready" ∧
      ((new (pipeline.execute source) runSteps files).run choices).TellsProgress 2
        "Run completed" := by
  have disassemblyCost := pipeline.cost_disassemble_le .steps source
  have runCost := pipeline.cost_execute_le .steps source
  constructor
  · have leads := pipeline.leads_disassemble source
    exact (metered_run leads disassemblyCost (by decide) (by decide) files choices).tellsProgress
      (orderly_run leads disassemblySteps files choices) (by decide)
  · have leads := pipeline.leads_execute source
    have withinTotal : (pipeline.execute source).cost .steps ≤ (runSteps : Nat) :=
      runCost.trans (by decide)
    exact (metered_run leads withinTotal (by decide) (by decide) files choices).tellsProgress
      (orderly_run leads runSteps files choices) (by decide)

end World

end CompiledViews
