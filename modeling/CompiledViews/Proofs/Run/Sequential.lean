import CompiledViews.Proofs.Run.Order
import CompiledViews.Proofs.Run.Scripted

/-!
# Threads make no difference

With a script for its tools, a run that shows the views comes to what one thread alone comes to that
does what it would start other threads for on the spot. For that is one of the runs with the script,
and they all come to the same.
-/

namespace CompiledViews

namespace World

/-- A world without its threads. -/
def bare (world : World) : World := { world with threads := [], registry := [] }

end World

/-- The world after a task has been done by one thread alone, which does itself what it would start
other threads for, as soon as it would start them. Tools do what a script gives. -/
def Task.inline (script : Script) : Task → World → World
  | done, world => world
  | update message next, world => next.inline script (world.reportStatus message world.progress)
  | advance message count next, world =>
    next.inline script (world.reportStatus message (world.progress.advance count))
  | skipToEnd message next, world =>
    next.inline script (world.reportStatus message world.progress.skipToEnd)
  | log text isError next, world => next.inline script (world.report (.log text isError))
  | deliver view content next, world => next.inline script (world.deliver view content)
  | spawn child next, world => next.inline script (child.inline script world)
  | abortAll next, world | awaitAll next, world | pause next, world => next.inline script world
  | askCancelled next, world => (next world.cancelled).inline script world
  | call tool command next, world =>
    (next (script tool command).outcome).inline script
      { world with
        launches := world.launches ++ [⟨tool, command, false⟩]
        files := (script tool command).effect world.files }
  | change action next, world =>
    (next (world.change action).2).inline script (world.change action).1
  | look next, world => (next world.files).inline script world

/-- The world after a thread in a phase has been left to itself in the same way. -/
def Phase.inline (script : Script) : Phase → World → World
  | ready task, world | awaiting _ task, world => task.inline script world
  | inFlight tool command next, world =>
    (next (script tool command).outcome).inline script
      { world with files := (script tool command).effect world.files }
  | ended, world => world

namespace World

variable {ending : Text → Prop} {script : Script} {world after start : World} {id : Nat}
  {task : Task}

theorem turn_act (goesOn : world.aborted id = false) (ready : world.phase id = .ready task) :
    world.turn id = some (world.takeStep id task) := by
  rcases exists_of_phase ready (by simp) with ⟨thread, found, isPhase⟩
  have notAborted : thread.aborted = false := by simpa [aborted, found] using goesOn
  simp [turn, found, notAborted, isPhase]

/-- A step that starts no thread is the first one of what its thread comes to. -/
theorem inline_takeStep (uncancelled : world.cancelled = false) (id : Nat)
    (noThread : ∀ child next, task ≠ .spawn child next) :
    (task.after world).inline script (world.takeStep id task).bare =
      task.inline script world.bare := by
  cases task with
  | spawn child next => exact absurd rfl (noThread child next)
  | deliver view content next =>
      have same : (world.takeStep id (.deliver view content next)).bare =
          world.bare.deliver view content := by
        simp only [takeStep, deliver]
        by_cases known : world.delivered.contains view = true
        · rw [if_pos known, if_pos (show world.bare.delivered.contains view = true from known)]
          rfl
        · rw [if_neg known, if_neg (show ¬world.bare.delivered.contains view = true from known)]
          rfl
      exact congrArg (next.inline script) same
  | change action next =>
      simp only [Task.after, takeStep, Task.inline, change_eq]
      rfl
  | call tool command next =>
      rcases world with ⟨threads, registry, progress, reports, delivered, launches, _, files⟩
      rcases uncancelled with rfl
      rfl
  | _ => rfl

/-- A tool that does what the script gives leads on to what its thread comes to. -/
theorem inline_land {tool : Tool} {command : Command} {next : Outcome → Task}
    (uncancelled : world.cancelled = false) (flies : world.phase id = .inFlight tool command next) :
    (world.step (.land id (script tool command))).phase id =
        .ready (next (script tool command).outcome) ∧
      (next (script tool command).outcome).inline script
        (world.step (.land id (script tool command))).bare =
          (world.phase id).inline script world.bare := by
  have exists_ := lt_of_phase flies (by simp)
  have stepped : world.step (.land id (script tool command)) =
      { world with files := (script tool command).effect world.files }.setPhase id
        (.ready (next (script tool command).outcome)) := by
    simp [step, land, flies, uncancelled]
  rw [stepped, flies]
  exact ⟨phase_setPhase_self (by exact exists_) _, rfl⟩

/-- A thread beside the main one has come to its end with a script while the others have stayed
where they were. -/
structure Inlines (script : Script) (world : World) (id : Nat) (after : World) : Prop where
  reaches : world.Reaches (.of script) after
  ended : after.phase id = .ended
  others : ∀ other, other ≠ id → after.phase other = world.phase other
  bare : after.bare = (world.phase id).inline script world.bare

/-- The main thread has come to its end with a script as if it had done alone what there was to
do. -/
structure Completes (script : Script) (world after : World) : Prop where
  reaches : world.Reaches (.of script) after
  ended : after.phase 0 = .ended
  bare : after.bare = (world.phase 0).inline script world.bare

section reached

variable (quiet : ∀ world : World, start.Reaches (.of script) world → world.Quiet ending)

include quiet

/-- It can do so from every phase, if it can from every task that it goes on with. -/
theorem exists_inlines (reached : start.Reaches (.of script) world) (isFork : id ≠ 0)
    (goesOn : (world.phase id).GoesOnWith fun task => ∀ world : World,
      start.Reaches (.of script) world → world.phase id = .ready task →
        ∃ after, world.Inlines script id after) : ∃ after, world.Inlines script id after := by
  cases phase : world.phase id with
  | ended => exact ⟨world, .refl world, phase, fun _ _ => rfl, by rw [phase]; rfl⟩
  | awaiting others next =>
      exact absurd ((quiet world reached).orderly.eq_main_of_awaiting phase) isFork
  | ready task =>
      rw [phase] at goesOn
      exact goesOn world reached phase
  | inFlight tool command next =>
      rw [phase] at goesOn
      have landed : world.Reaches (.of script) _ := reaches_land phase rfl
      rcases inline_land (quiet world reached).uncancelled phase with ⟨isReady, same⟩
      rcases step_land phase (script tool command) with ⟨_, _, others⟩
      rcases goesOn _ _ (reached.trans landed) isReady with ⟨after, inlines⟩
      refine ⟨after, landed.trans inlines.reaches, inlines.ended, fun other different => ?_, ?_⟩
      · exact (inlines.others other different).trans (others other different)
      · rw [inlines.bare, isReady]
        exact same

theorem exists_inlines_of_ready (isFork : id ≠ 0) (task : Task) : ∀ world : World,
    start.Reaches (.of script) world → world.phase id = .ready task →
      ∃ after, world.Inlines script id after := by
  induction task using Task.of_goesOnWith with
  | step task ih =>
      intro world reached ready
      have exists_ := lt_of_phase ready (by simp)
      have forked := (quiet world reached).orderly.forked id isFork
      rw [ready] at forked
      have noThread (child next : Task) : task ≠ .spawn child next := by
        rintro rfl
        exact forked
      have acted : world.Reaches (.of script) _ :=
        reaches_turn (turn_act ((quiet world reached).goOn id) ready)
      have others (other : Nat) (different : other ≠ id) :
          (world.takeStep id task).phase other = world.phase other := by
        rcases phase_takeStep exists_ task other with ⟨_, same⟩ | ⟨same, _⟩ | ⟨_, _, _, spawns, _⟩
        · exact same
        · exact absurd same different
        · exact absurd spawns (noThread _ _)
      have stepped := phase_takeStep_self exists_ task
      rcases exists_inlines quiet (reached.trans acted) isFork (stepped ▸ ih world) with
        ⟨after, inlines⟩
      refine ⟨after, acted.trans inlines.reaches, inlines.ended, fun other different => ?_, ?_⟩
      · exact (inlines.others other different).trans (others other different)
      · rw [inlines.bare, stepped, ready]
        exact inline_takeStep (quiet world reached).uncancelled id noThread

/-- The main thread comes to its end with a script while each thread that it starts has come to its
own before the main thread goes on. -/
theorem exists_completes (reached : start.Reaches (.of script) world) (alone : world.Alone)
    (goesOn : (world.phase 0).GoesOnWith fun task => ∀ world : World,
      start.Reaches (.of script) world → world.Alone → world.phase 0 = .ready task →
        ∃ after, world.Completes script after) : ∃ after, world.Completes script after := by
  have orderly := (quiet world reached).orderly
  cases phase : world.phase 0 with
  | ended => exact ⟨world, .refl world, phase, by rw [phase]; rfl⟩
  | ready task =>
      rw [phase] at goesOn
      exact goesOn world reached alone phase
  | inFlight tool command next =>
      rw [phase] at goesOn
      have landed : world.Reaches (.of script) _ := reaches_land phase rfl
      rcases inline_land (quiet world reached).uncancelled phase with ⟨isReady, same⟩
      rcases step_land phase (script tool command) with ⟨_, _, others⟩
      rcases goesOn _ _ (reached.trans landed)
        (fun id isFork => (others id isFork).trans (alone id isFork)) isReady with
        ⟨after, completes, ended, bare⟩
      refine ⟨after, landed.trans completes, ended, ?_⟩
      rw [bare, isReady]
      exact same
  | awaiting others next =>
      rw [phase] at goesOn
      obtain ⟨middle, resumed, isReady, alone_middle, unchanged⟩ :=
        exists_resumed orderly alone phase
      rcases goesOn middle (reached.trans resumed) alone_middle isReady with
        ⟨after, completes, ended, bare⟩
      refine ⟨after, resumed.trans completes, ended, ?_⟩
      rw [bare, isReady, unchanged, phase]
      rfl

theorem exists_completes_of_ready (task : Task) : ∀ world : World,
    start.Reaches (.of script) world → world.Alone → world.phase 0 = .ready task →
      ∃ after, world.Completes script after := by
  induction task using Task.of_goesOnWith with
  | step task ih =>
      intro world reached alone ready
      have exists_ := (quiet world reached).orderly.exists_main
      have stepped := phase_takeStep_self exists_ task
      have acted : world.Reaches (.of script) _ :=
        reaches_turn (turn_act ((quiet world reached).goOn 0) ready)
      by_cases spawns : ∃ child next, task = .spawn child next
      · -- The thread that has been started comes to its end first.
        rcases spawns with ⟨child, next, rfl⟩
        have isFork : world.threads.length ≠ 0 := by omega
        have born : (world.takeStep 0 (.spawn child next)).phase world.threads.length =
            .ready child := by
          simp [World.phase, takeStep, Thread.new]
        rcases exists_inlines_of_ready quiet isFork child _ (reached.trans acted) born with
          ⟨middle, inlines⟩
        have isReady : middle.phase 0 = .ready next :=
          (inlines.others 0 isFork.symm).trans stepped
        have alone_middle : middle.Alone := by
          intro id isOther
          by_cases isChild : id = world.threads.length
          · exact isChild ▸ inlines.ended
          · rcases phase_takeStep exists_ (.spawn child next) id with
              ⟨_, same⟩ | ⟨same, _⟩ | ⟨isNew, _⟩
            · exact (inlines.others id isChild).trans (same.trans (alone id isOther))
            · exact absurd same isOther
            · exact absurd isNew isChild
        have reached_middle := reached.trans (acted.trans inlines.reaches)
        have goesOn := ih world middle reached_middle alone_middle isReady
        rcases goesOn with ⟨after, completes, ended, bare⟩
        refine ⟨after, acted.trans (inlines.reaches.trans completes), ended, ?_⟩
        rw [bare, isReady, inlines.bare, born, ready]
        rfl
      · have noThread (child next : Task) : task ≠ .spawn child next :=
          fun same => spawns ⟨child, next, same⟩
        have alone_after : (world.takeStep 0 task).Alone := by
          intro id isFork
          rcases phase_takeStep exists_ task id with ⟨_, same⟩ | ⟨same, _⟩ | ⟨_, _, _, starts, _⟩
          · exact same.trans (alone id isFork)
          · exact absurd same isFork
          · exact absurd starts (noThread _ _)
        rcases exists_completes quiet (reached.trans acted) alone_after (stepped ▸ ih world) with
          ⟨after, completes, ended, bare⟩
        refine ⟨after, acted.trans completes, ended, ?_⟩
        rw [bare, stepped, ready]
        exact inline_takeStep (quiet world reached).uncancelled 0 noThread

end reached

/-- The world after a task has been done by one thread alone from its beginning. -/
def alone (script : Script) (task : Task) (steps : Nat) (files : FileTree) : World :=
  task.inline script (new task steps files).bare

/-- One thread alone comes to what a run with the script comes to. -/
theorem exists_run_alone {view : View} (answers : script.Answers) (leads : task.Leads ending)
    (settles : task.Settles view) (steps : Nat) (files : FileTree) : ∃ choices,
      (new task steps files).Within (.of script) choices ∧
      ((new task steps files).run choices).hasEnded 0 = true ∧
      ((new task steps files).run choices).bare = alone script task steps files := by
  have quiet (world : World) (reached : (new task steps files).Reaches (.of script) world) :
      world.Quiet ending := by
    rcases reached with ⟨choices, within, rfl⟩
    exact quiet_of_calm leads settles steps files (within.calm answers)
  have alone : (new task steps files).Alone := by
    intro id isFork
    cases id with
    | zero => exact absurd rfl isFork
    | succ id => rfl
  rcases exists_completes_of_ready quiet task _ (.refl _) alone rfl with
    ⟨_, ⟨choices, within, rfl⟩, ended, bare⟩
  exact ⟨choices, within, hasEnded_iff.2 ended, bare⟩

/-- Choices that bring a run to its end without cancelling it. -/
structure Completing (start : World) (choices : List Choice) : Prop where
  never : .cancel ∉ choices
  ended : (start.run choices).hasEnded 0 = true

section contents

variable {pipeline : Pipeline} {source : Text} {files : FileTree} {choices left right : List Choice}
  {view : View}

/-- At the end of a run contents are those of the dump that the tool of the view has left behind, or
empty if there is none. -/
theorem told_of_completing (completing : (pipeline.showing source files).Completing choices)
    {content : Content}
    (isTold : (view, content) ∈ contents ((pipeline.showing source files).run choices).reports) :
    (content = .empty ∧
        ∀ output, ¬Dumped ((pipeline.showing source files).exits choices) view output) ∨
      ∃ output, Dumped ((pipeline.showing source files).exits choices) view output ∧
        content = view.format.content output := by
  have faithful := faithful_run disassemblySteps files choices
    (pipeline.faithful_disassemble source)
  have accounted : ((pipeline.showing source files).run choices).Accounted :=
    accounted_run disassemblySteps files choices
  rcases (faithful.reported view content isTold).2 with isEmpty | dumped
  · refine .inl ⟨isEmpty, fun output dumped => ?_⟩
    rcases shown_of_dumped (pipeline.leads_disassemble source)
      (pipeline.settles_disassemble source view) completing.never completing.ended dumped with
      ⟨other, isShown, isOther⟩
    exact isShown ((accounted.content_unique isOther isTold).trans isEmpty)
  · exact .inr dumped

/-- The dump tool of a view does not exit twice. -/
theorem dump_unique {first second : Text}
    (isFirst : Dumped ((pipeline.showing source files).exits choices) view first)
    (isSecond : Dumped ((pipeline.showing source files).exits choices) view second) :
    first = second := by
  have paid := paid_le_cost (.runsOf view.tool) (pipeline.disassemble source) disassemblySteps files
    choices
  rw [Price.paid_runsOf, List.countP_eq_length_filter] at paid
  have once := Nat.cast_le.1 (paid.trans (pipeline.cost_disassemble_le (.runsOf view.tool) source))
  have few : (((pipeline.showing source files).exits choices).filter
      fun exit => exit.1 = view.tool).length ≤ 1 := once.trans (by cases view <;> decide)
  have keeps {output : Text}
      (dumped : Dumped ((pipeline.showing source files).exits choices) view output) :
      (view.tool, ⟨0, output⟩) ∈ ((pipeline.showing source files).exits choices).filter
        fun exit => exit.1 = view.tool := List.mem_filter.2 ⟨dumped, decide_eq_true rfl⟩
  have isFirstKept := keeps isFirst
  have isSecondKept := keeps isSecond
  generalize ((pipeline.showing source files).exits choices).filter
    (fun exit => exit.1 = view.tool) = kept at few isFirstKept isSecondKept
  rcases kept with _ | ⟨only, _ | ⟨more, rest⟩⟩
  · exact absurd isFirstKept List.not_mem_nil
  · have same := (List.mem_singleton.1 isFirstKept).trans (List.mem_singleton.1 isSecondKept).symm
    simpa using same
  · simp at few

/-- What one run tells another one tells that comes to its end as well, and in which the same tools
have exited with the same results. -/
theorem told_of_perm (first : (pipeline.showing source files).Completing left)
    (second : (pipeline.showing source files).Completing right)
    (exits : ((pipeline.showing source files).exits left).Perm
      ((pipeline.showing source files).exits right)) {content : Content}
    (isTold : (view, content) ∈ contents ((pipeline.showing source files).run left).reports) :
    (view, content) ∈ contents ((pipeline.showing source files).run right).reports := by
  have computed := ((faithful_run disassemblySteps files left
    (pipeline.faithful_disassemble source)).reported view content isTold).1
  have provided := provided_run disassemblySteps files right
    (pipeline.leads_disassemble source) (pipeline.provides_disassemble source computed)
  have accounted : ((pipeline.showing source files).run right).Accounted :=
    accounted_run disassemblySteps files right
  rcases accounted.exists_content (provided.delivered_of_ended second.ended) with ⟨other, isOther⟩
  suffices content = other from this ▸ isOther
  rcases told_of_completing first isTold with ⟨isEmpty, none⟩ | ⟨output, dumped, isRead⟩
  · rcases told_of_completing second isOther with ⟨isOtherEmpty, _⟩ | ⟨output, dumped, _⟩
    · exact isEmpty.trans isOtherEmpty.symm
    · exact absurd (exits.mem_iff.2 dumped) (none output)
  · rcases told_of_completing second isOther with ⟨_, none⟩ |
      ⟨otherOutput, otherDumped, isOtherRead⟩
    · exact absurd (exits.mem_iff.1 dumped) (none output)
    · rw [isRead, isOtherRead, dump_unique (exits.mem_iff.1 dumped) otherDumped]

theorem perm_contents (first : (pipeline.showing source files).Completing left)
    (second : (pipeline.showing source files).Completing right)
    (exits : ((pipeline.showing source files).exits left).Perm
      ((pipeline.showing source files).exits right)) :
    (contents ((pipeline.showing source files).run left).reports).Perm
      (contents ((pipeline.showing source files).run right).reports) := by
  have accounted (choices : List Choice) :
      ((pipeline.showing source files).run choices).Accounted :=
    accounted_run disassemblySteps files choices
  refine (List.perm_ext_iff_of_nodup (accounted left).nodup_contents.of_map
    (accounted right).nodup_contents.of_map).2 fun told => ⟨fun isTold => ?_, fun isTold => ?_⟩
  · exact told_of_perm first second exits isTold
  · exact told_of_perm second first exits.symm isTold

end contents

/-- What a run from a world on that shows the views comes to with a script for its tools. When the
main thread is at its end, the contents, the statuses and logs, the tools that have been launched
with their commands, and the last status are those of a reference. At every point what the main
thread has told is in the order of its steps, and no status tells of a view whose contents have not
been told before; and with the script the main thread can come to its end. -/
structure MatchesAlone (pipeline : Pipeline) (script : Script) (start reference : World)
    (choices : List Choice) : Prop where
  contents : (start.run choices).hasEnded 0 = true →
    (contents (start.run choices).reports).Perm (contents reference.reports)
  notes : (start.run choices).hasEnded 0 = true →
    (notes (start.run choices).reports).Perm (notes reference.reports)
  launches : (start.run choices).hasEnded 0 = true →
    (start.run choices).launches.Perm reference.launches
  terminal : (start.run choices).hasEnded 0 = true →
    terminal? (start.run choices).reports = terminal? reference.reports
  main : (notesOf (own 0 (start.record choices))).Sublist
    (CompiledViews.notes (start.run choices).reports)
  inOrder : ∃ told, Pipeline.InStepOrder pipeline.settings told ∧
    notesOf (own 0 (start.record choices)) <+: told
  heralded : Heralded (start.run choices).reports
  ends : ∃ rest, start.Within (.of script) (choices ++ rest) ∧
    (start.run (choices ++ rest)).hasEnded 0 = true

/-- A run that shows the views comes to what one thread alone comes to with the same script,
whatever is chosen to happen, if no tool ends as if the run were cancelled and the tool that makes
the dump of the class files spares the file of rules. -/
theorem matchesAlone_of_disassemble (pipeline : Pipeline) (source : Text) (files : FileTree)
    {script : Script} (answers : script.Answers)
    (spares : ∀ command, pipeline.SparesRules (script .javap command).effect)
    {choices : List Choice}
    (within : (pipeline.showing source files).Within (.of script) choices) :
    MatchesAlone pipeline script (pipeline.showing source files)
      (alone script (pipeline.disassemble source) disassemblySteps files) choices := by
  have leads := pipeline.leads_disassemble source
  have settles := pipeline.settles_disassemble source .byteCode
  have careful := Pipeline.careful_disassemble spares source
  have calm := within.calm answers
  rcases exists_run_alone answers leads settles disassemblySteps files with
    ⟨reference, referenceWithin, referenceEnded, bare⟩
  have referenceCalm := referenceWithin.calm answers
  -- Both runs do the same in another order.
  have sameDeeds (ended : ((pipeline.showing source files).run choices).hasEnded 0 = true) :
      (((pipeline.showing source files).record choices).map Prod.snd).Perm
        (((pipeline.showing source files).record reference).map Prod.snd) :=
    (perm_total answers careful leads settles disassemblySteps files within ended).trans
      (perm_total answers careful leads settles disassemblySteps files referenceWithin
        referenceEnded).symm
  have reports : (alone script (pipeline.disassemble source) disassemblySteps files).reports =
      ((pipeline.showing source files).run reference).reports := by
    rw [← bare]
    rfl
  have launches : (alone script (pipeline.disassemble source) disassemblySteps files).launches =
      ((pipeline.showing source files).run reference).launches := by
    rw [← bare]
    rfl
  refine ⟨fun ended => ?_, fun ended => ?_, fun ended => ?_, fun ended => ?_, ?_, ?_,
    heralded_run calm, ?_⟩
  · rw [reports]
    refine perm_contents ⟨calm.never fun cancels => cancels, ended⟩
      ⟨referenceCalm.never fun cancels => cancels, referenceEnded⟩ ?_
    rw [exits_run, exits_run]
    have exits := (sameDeeds ended).filterMap Deed.exit?
    rwa [List.filterMap_map, List.filterMap_map] at exits
  · rw [reports, notes_run, notes_run]
    have noted := (sameDeeds ended).filterMap Deed.note?
    rwa [List.filterMap_map, List.filterMap_map] at noted
  · rw [launches, launches_run, launches_run]
    have asked := (sameDeeds ended).filterMap Deed.asked?
    rwa [List.filterMap_map, List.filterMap_map] at asked
  · have concludes := (mainCourse_of_ended calm ended).concludes
    have same := own_eq_solo answers careful leads settles disassemblySteps files within ended
    have sameReference := own_eq_solo answers careful leads settles disassemblySteps files
      referenceWithin referenceEnded
    have told := (hasConcluded_run leads disassemblySteps files (mem_own.1 concludes)).told.terminal
    rw [same, ← sameReference] at concludes told
    rw [told, reports]
    exact (hasConcluded_run leads disassemblySteps files (mem_own.1 concludes)).told.terminal.symm
  · rw [notes_run, notesOf, own, List.filterMap_map]
    exact List.filter_sublist.filterMap _
  · rcases exists_does_main leads settles disassemblySteps files calm with ⟨rest, does⟩
    refine ⟨_, Pipeline.inStepOrder_of_does does, ?_⟩
    rw [notesOf_append]
    exact List.prefix_append _ _
  · have landings (tool : Tool) (command : Command) :
        ∃ landing, (Surroundings.of script).lands tool command landing := ⟨_, rfl⟩
    rcases (orderly_run leads disassemblySteps files choices).exists_ended_within landings with
      ⟨rest, restWithin, ended⟩
    exact ⟨rest, within_append.2 ⟨within, restWithin⟩, by rwa [run_append]⟩

/-- The tool that makes the dump of the class files fails, the device cannot be reached, and the
other tools succeed. -/
def deviceless : Script
  | .javap, _ => ⟨.ok ⟨1, "class not found"⟩, fun files => files⟩
  | .push, _ => ⟨.error (.launch "adb" "no such file"), fun files => files⟩
  | _, _ => ⟨.ok ⟨0, []⟩, fun files => files⟩

theorem matchesAlone_deviceless : ∃ choices,
    (Pipeline.plain.showing [] .vacant).Within (.of deviceless) choices ∧
    ((Pipeline.plain.showing [] .vacant).run choices).hasEnded 0 = true ∧
    MatchesAlone .plain deviceless (Pipeline.plain.showing [] .vacant)
      (alone deviceless (Pipeline.plain.disassemble []) disassemblySteps .vacant) choices := by
  have answers : deviceless.Answers := fun tool _ => by cases tool <;> nofun
  have spares (command : Command) :
      Pipeline.plain.SparesRules (deviceless .javap command).effect := fun _ => rfl
  have within : (Pipeline.plain.showing [] .vacant).Within (.of deviceless) [] := trivial
  obtain ⟨choices, chosen, ended⟩ :=
    (matchesAlone_of_disassemble .plain [] .vacant answers spares within).ends
  exact ⟨choices, chosen, ended,
    matchesAlone_of_disassemble .plain [] .vacant answers spares chosen⟩

example : terminal? (alone deviceless (Pipeline.plain.disassemble []) disassemblySteps
    .vacant).reports = some ("Error pushing code to device" : Text) := by
  decide +kernel

end World

end CompiledViews
