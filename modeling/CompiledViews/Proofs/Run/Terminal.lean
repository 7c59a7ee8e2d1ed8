import CompiledViews.Proofs.Run.Progress
import CompiledViews.Proofs.Run.Record

/-!
# The last status of a run

The main thread concludes a run with its last status. It is alone by then and has nothing left to do
but to fill, so the message it concludes with is that of the last status that is ever reported.
-/

namespace CompiledViews

/-- The message of the last status among reports. -/
def terminal? (reports : List Report) : Option Text :=
  (reports.filterMap fun
    | .status message _ => some message
    | _ => none).getLast?

/-- Reports end in a status with the given message, but for empty contents. -/
def EndsWith (message : Text) (reports : List Report) : Prop :=
  ∃ before progress after, reports = before ++ Report.status message progress :: after ∧
    ∀ report ∈ after, ∃ view, report = .content view .empty

theorem EndsWith.append {message : Text} {reports new : List Report}
    (ends : EndsWith message reports)
    (empties : ∀ report ∈ new, ∃ view, report = .content view .empty) :
    EndsWith message (reports ++ new) := by
  rcases ends with ⟨before, progress, after, rfl, onlyEmpties⟩
  refine ⟨before, progress, after ++ new, by simp, fun report member => ?_⟩
  exact (List.mem_append.1 member).elim (onlyEmpties report) (empties report)

theorem EndsWith.terminal {message : Text} {reports : List Report}
    (ends : EndsWith message reports) : terminal? reports = some message := by
  rcases ends with ⟨before, progress, after, rfl, onlyEmpties⟩
  have silent : (after.filterMap fun
      | .status message _ => some message
      | _ => none) = [] := by
    rw [List.filterMap_eq_nil_iff]
    intro report member
    rcases onlyEmpties report member with ⟨view, rfl⟩
    rfl
  simp [terminal?, silent]

theorem Task.Fills.empties {task : Task} (fills : task.Fills) (world : World) :
    ∀ report ∈ task.reported world, ∃ view, report = .content view .empty := by
  intro report isReported
  cases task with
  | deliver view content next =>
      rcases fills.1 with rfl
      simp only [reported, List.mem_ite_nil_left, List.mem_singleton] at isReported
      exact ⟨view, isReported.2⟩
  | done => simp [reported] at isReported
  | awaitAll next => simp [reported] at isReported
  | _ => exact fills.elim

theorem Task.Fills.after {task : Task} (fills : task.Fills) (world : World) :
    (task.after world).Fills := by
  cases task with
  | deliver view content next => exact fills.2
  | done => trivial
  | awaitAll next => exact fills
  | _ => exact fills.elim

namespace World

variable {ending : Text → Prop} {surroundings : Surroundings} {message : Text}
  {world after : World} {made : List (Nat × Deed)}

/-- The main thread has concluded the run with a message, and only fills. -/
structure HasConcluded (message : Text) (world : World) : Prop where
  fills : (world.phase 0).Fills
  alone : world.Alone
  told : EndsWith message world.reports

/-- An act that concludes is one of the main thread, and the run has been concluded after it. -/
theorem Orderly.hasConcluded (orderly : world.Orderly ending) {id : Nat}
    (concludes : (id, .conclude message) ∈ made) (act : world.Act surroundings made after) :
    after.HasConcluded message := by
  cases act with
  | @act actor task ready =>
      rcases List.mem_map.1 concludes with ⟨deed, isDeed, same⟩
      rcases Prod.mk.inj same with ⟨rfl, rfl⟩
      cases task with
      | skipToEnd last next =>
          obtain rfl : message = last := by simpa [Task.deeds] using isDeed
          rcases orderly.fills_of_skipToEnd ready with ⟨rfl, fills, alone⟩
          refine ⟨?_, fun id isFork => (phase_setPhase_of_ne isFork _).trans (alone id isFork), ?_⟩
          · rw [phase_takeStep_self orderly.exists_main]
            exact fills
          · exact ⟨world.reports, world.progress.skipToEnd, [], rfl, by simp⟩
      | call tool command next =>
          simp only [Task.deeds] at isDeed
          split at isDeed <;> simp at isDeed
      | _ => simp [Task.deeds] at isDeed
  | _ => simp at concludes

theorem HasConcluded.eq_main (concluded : world.HasConcluded message) {id : Nat}
    (goesOn : world.phase id ≠ .ended) : id = 0 := by
  by_contra isFork
  exact goesOn (concluded.alone id isFork)

/-- Another phase in which the main thread only fills leaves a run concluded. -/
theorem HasConcluded.setPhase (concluded : world.HasConcluded message) {changed : World}
    {id : Nat} {phase : Phase} (threads : changed.threads = world.threads)
    (reports : changed.reports = world.reports) (goesOn : world.phase id ≠ .ended)
    (fills : (world.phase id).Fills → phase.Fills) :
    (changed.setPhase id phase).HasConcluded message := by
  obtain rfl : id = 0 := concluded.eq_main goesOn
  refine ⟨?_, fun other isFork => ?_, reports ▸ concluded.told⟩
  · rw [phase_setPhase_self (threads ▸ lt_of_phase rfl goesOn)]
    exact fills concluded.fills
  · have same : (changed.setPhase 0 phase).phase other = world.phase other :=
      (phase_setPhase_of_ne isFork phase).trans (phase_of_threads (by rw [threads]))
    exact same.trans (concluded.alone other isFork)

/-- A run that has been concluded stays so. -/
theorem HasConcluded.act (concluded : world.HasConcluded message)
    (act : world.Act surroundings made after) : after.HasConcluded message := by
  have main {id : Nat} {phase : Phase} (isPhase : world.phase id = phase)
      (goesOn : phase ≠ .ended) : phase.Fills := by
    rcases concluded.eq_main (isPhase ▸ goesOn) with rfl
    exact isPhase ▸ concluded.fills
  cases act with
  | rest => exact concluded
  | cancel allowed => exact ⟨concluded.fills, concluded.alone, concluded.told⟩
  | stop aborted goesOn => exact concluded.setPhase rfl rfl goesOn fun _ => trivial
  | @act id task ready =>
      have fills : task.Fills := main ready (by simp)
      obtain rfl : id = 0 := concluded.eq_main (by simp [ready])
      have exists_ := lt_of_phase ready (by simp)
      refine ⟨phase_takeStep_self exists_ task ▸ fills.after world, fun other isFork => ?_, ?_⟩
      · rcases phase_takeStep exists_ task other with
          ⟨_, same⟩ | ⟨same, _⟩ | ⟨_, child, next, rfl, _⟩
        · exact same.trans (concluded.alone other isFork)
        · exact absurd same isFork
        · exact fills.elim
      · rw [reports_takeStep]
        exact concluded.told.append (fills.empties world)
  | collect waits =>
      have fills := main waits (by simp)
      exact concluded.setPhase rfl rfl (by simp [waits]) fun _ => fills
  | resume waits none =>
      have fills := main waits (by simp)
      exact concluded.setPhase rfl rfl (by simp [waits]) fun _ => fills
  | skip waits ended =>
      have fills := main waits (by simp)
      exact concluded.setPhase rfl rfl (by simp [waits]) fun _ => fills
  | land flies landing uncancelled lands => exact (main flies (by simp)).elim
  | drop flies cancelled => exact (main flies (by simp)).elim

/-- What a run has been concluded with is its last status. -/
theorem hasConcluded_run {task : Task} (leads : task.Leads ending) (steps : Nat)
    (files : FileTree) {choices : List Choice} {id : Nat}
    (concludes : (id, .conclude message) ∈ (new task steps files).record choices) :
    ((new task steps files).run choices).HasConcluded message := by
  refine holds_of_acts (fun world record => ∀ message, (id, .conclude message) ∈ record →
    world.HasConcluded message) (by simp) ?_ (within_any _ choices) message concludes
  intro earlier made after _ act known message member
  rcases List.mem_append.1 member with before | now
  · exact (known message before).act act
  · exact (orderly_run leads steps files earlier).hasConcluded now act

end World

end CompiledViews
