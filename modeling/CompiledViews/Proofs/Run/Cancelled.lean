import CompiledViews.Proofs.Run.Terminal

/-!
# Runs that are cancelled

Up to the point where the main thread has waited for the others it heeds a cancellation: if the run
is cancelled by then, it concludes with the error of the scratch directory if there has been one,
else with the message that the run is cancelled. No tool is launched once the run is cancelled.
-/

namespace CompiledViews

namespace Task

/-- The end of a main thread that has waited, in a run that is cancelled. -/
def Stops (message : Text) : Task → Prop
  | skipToEnd last _ => last = message
  | log _ _ next => next.Stops message
  | askCancelled next => (next true).Stops message
  | _ => False

variable (final : List (Option OsError) → Text)

/-- A main thread that has still to wait, and stops with a message if the run is cancelled by then.
The message depends on what its changes of the files have come to. -/
def Heeds : List (Option OsError) → Task → Prop
  | known, update _ next | known, advance _ _ next | known, log _ _ next
  | known, deliver _ _ next | known, spawn _ next | known, abortAll next | known, pause next =>
    next.Heeds known
  | known, awaitAll next => next.Stops (final known)
  | known, askCancelled next => ∀ answer, (next answer).Heeds known
  | known, call _ _ next => ∀ outcome, (next outcome).Heeds known
  | known, change _ next => ∀ error, (next error).Heeds (known ++ [error])
  | known, look next => ∀ tree, (next tree).Heeds known
  | _, done | _, skipToEnd _ _ => False

end Task

namespace Phase

def Stops (message : Text) : Phase → Prop
  | ready task => task.Stops message
  | _ => False

variable (final : List (Option OsError) → Text)

def Heeds (known : List (Option OsError)) : Phase → Prop
  | ready task => task.Heeds final known
  | inFlight _ _ next => ∀ outcome, (next outcome).Heeds final known
  | awaiting _ next => next.Stops (final known)
  | ended => False

end Phase

variable {final : List (Option OsError) → Text} {known : List (Option OsError)}

theorem Task.Heeds.after {task : Task} (heeds : task.Heeds final known) (world : World) :
    (task.after world).Heeds final (known ++ changes (task.deeds world)) := by
  have unchanged {phase : Phase} (heeds : phase.Heeds final known) :
      phase.Heeds final (known ++ []) := by
    rwa [List.append_nil]
  cases task with
  | call tool command next =>
      have silent : changes ((call tool command next).deeds world) = [] := by
        simp only [deeds]
        split <;> rfl
      rw [silent, List.append_nil, after_call]
      split
      · exact heeds _
      · exact heeds
  | change action next => exact heeds _
  | done => exact heeds.elim
  | skipToEnd message next => exact heeds.elim
  | askCancelled next => exact unchanged (heeds _)
  | look next => exact unchanged (heeds _)
  | update message next => exact unchanged heeds
  | advance message count next => exact unchanged heeds
  | log text isError next => exact unchanged heeds
  | deliver view content next => exact unchanged heeds
  | spawn child next => exact unchanged heeds
  | abortAll next => exact unchanged heeds
  | awaitAll next => exact unchanged heeds
  | pause next => exact unchanged heeds

theorem Task.Stops.after {task : Task} {message : Text} (stops : task.Stops message)
    {world : World} (cancelled : world.cancelled = true) :
    (task.after world).Stops message ∧ changes (task.deeds world) = [] ∨
      ∃ next, task = .skipToEnd message next := by
  cases task with
  | skipToEnd last next => exact .inr ⟨next, by rw [show last = message from stops]⟩
  | log text isError next => exact .inl ⟨stops, rfl⟩
  | askCancelled next =>
      refine .inl ⟨?_, rfl⟩
      rw [Task.after, cancelled]
      exact stops
  | _ => exact stops.elim

namespace World

variable {ending : Text → Prop} {surroundings : Surroundings} {message : Text}
  {world after : World} {made : List (Nat × Deed)}

/-- A main thread that heeds a cancellation goes on to do so, until it has waited. -/
theorem Orderly.heeds_act (orderly : world.Orderly ending)
    (heeds : (world.phase 0).Heeds final known) (act : world.Act surroundings made after) :
    (after.phase 0).Heeds final (known ++ changes (own 0 made)) ∨
      .wait ∈ own 0 made ∧ (after.phase 0).Stops (final (known ++ changes (own 0 made))) := by
  have unchanged {phase : Phase} (heeds : phase.Heeds final known) :
      phase.Heeds final (known ++ []) := by
    rwa [List.append_nil]
  rcases act.turn 0 with turn | ⟨isNew, _⟩
  · generalize world.phase 0 = before, own 0 made = deeds, after.phase 0 = later at *
    cases turn with
    | rest => exact .inl (unchanged heeds)
    | stop aborted => simp [orderly.goesOn] at aborted
    | step => exact .inl (Task.Heeds.after heeds world)
    | attend => exact .inl (unchanged heeds)
    | resume =>
        refine .inr ⟨List.mem_singleton_self _, ?_⟩
        change Phase.Stops (final (known ++ [])) _
        rw [List.append_nil]
        exact heeds
    | hear heard => exact .inl (unchanged (heeds _))
  · exact absurd orderly.exists_main (isNew ▸ Nat.lt_irrefl 0)

theorem Act.cancelled (act : world.Act surroundings made after)
    (cancelled : world.cancelled = true) : after.cancelled = true := by
  rcases act.move with ⟨exits, move⟩
  by_contra uncancelled
  have before := move.uncancelled (by simpa using uncancelled)
  simp [cancelled] at before

/-- Tools that are asked for after a run has been cancelled are refused. -/
theorem Act.launches (act : world.Act surroundings made after)
    (cancelled : world.cancelled = true) :
    (after.launches.filter fun launch => !launch.refused) =
      world.launches.filter fun launch => !launch.refused := by
  cases act with
  | @act id task ready =>
      rw [Task.asked_deeds, List.filter_append]
      cases task <;> simp [Task.deeds, cancelled, Deed.asked?]
  | _ => rfl

/-- Where a run that is cancelled is on its way to the last status. -/
inductive Abides (final : List (Option OsError) → Text) (known : List (Option OsError))
    (world : World) : Prop where
  | heeds (main : (world.phase 0).Heeds final known)
  | stops (main : (world.phase 0).Stops (final known))
  | concluded (concluded : world.HasConcluded (final known))

theorem HasConcluded.changes_eq_nil (concluded : world.HasConcluded message)
    (act : world.Act surroundings made after) : changes (own 0 made) = [] := by
  have fills := concluded.fills
  rcases act.turn 0 with turn | ⟨_, none, _⟩
  · generalize world.phase 0 = before, own 0 made = deeds, after.phase 0 = later at *
    cases turn with
    | @step task => cases task <;> first | rfl | exact fills.elim
    | hear heard => exact fills.elim
    | _ => rfl
  · rw [none]
    rfl

theorem Abides.act (abides : world.Abides final known) (orderly : world.Orderly ending)
    (cancelled : world.cancelled = true) (act : world.Act surroundings made after) :
    after.Abides final (known ++ changes (own 0 made)) := by
  cases abides with
  | heeds main =>
      rcases orderly.heeds_act main act with still | ⟨_, stops⟩
      · exact .heeds still
      · exact .stops stops
  | concluded concluded =>
      rw [concluded.changes_eq_nil act, List.append_nil]
      exact .concluded (concluded.act act)
  | stops main =>
      rcases act.turn 0 with turn | ⟨isNew, _⟩
      · have made_main (deed : Deed) : deed ∈ own 0 made → (0, deed) ∈ made := mem_own.1
        generalize world.phase 0 = before, own 0 made = deeds, phase : after.phase 0 = later at *
        cases turn with
        | rest => exact .stops (by simpa [phase, changes] using main)
        | stop aborted => simp [orderly.goesOn] at aborted
        | @step task =>
            rcases Task.Stops.after main cancelled with ⟨stops, silent⟩ | ⟨next, rfl⟩
            · rw [silent, List.append_nil]
              exact .stops (phase ▸ stops)
            · change after.Abides final (known ++ [])
              rw [List.append_nil]
              exact .concluded (orderly.hasConcluded (made_main _ (List.mem_singleton_self _)) act)
        | attend => exact main.elim
        | resume => exact main.elim
        | hear heard => exact main.elim
      · exact absurd orderly.exists_main (isNew ▸ Nat.lt_irrefl 0)

variable {task : Task} (leads : task.Leads ending) (heeds : task.Heeds final []) (steps : Nat)
  (files : FileTree)

include leads heeds

theorem heeds_run {choices : List Choice}
    (waits : (0, .wait) ∉ (new task steps files).record choices) :
    (((new task steps files).run choices).phase 0).Heeds final
      (changes (own 0 ((new task steps files).record choices))) := by
  refine holds_of_acts (fun world record => (0, .wait) ∉ record →
    (world.phase 0).Heeds final (changes (own 0 record))) (fun _ => by exact heeds) ?_
    (within_any _ choices) waits
  intro earlier made after _ act known waits
  rw [List.mem_append, not_or] at waits
  have orderly := orderly_run leads steps files earlier
  rcases orderly.heeds_act (known waits.1) act with still | ⟨waited, _⟩
  · rwa [own_append, changes_append]
  · exact absurd (mem_own.1 waited) waits.2

/-- Where a run is that is cancelled before the main thread has waited. -/
theorem abides_run {earlier : List Choice} (later : List Choice)
    (waits : (0, .wait) ∉ (new task steps files).record earlier) :
    ((new task steps files).run (earlier ++ .cancel :: later)).Abides final
      (changes (own 0 ((new task steps files).record (earlier ++ .cancel :: later)))) := by
  let start := new task steps files
  let cancelled := (start.run earlier).step .cancel
  have abides : (cancelled.run later).cancelled = true ∧ (cancelled.run later).Abides final
      (changes (own 0 (start.record earlier)) ++ changes (own 0 (cancelled.record later))) := by
    refine holds_of_acts (fun world record => world.cancelled = true ∧ world.Abides final
      (changes (own 0 (start.record earlier)) ++ changes (own 0 record))) ⟨rfl, ?_⟩ ?_
      (within_any _ later)
    · rw [own_nil]
      change cancelled.Abides final (_ ++ [])
      rw [List.append_nil]
      exact .heeds (heeds_run leads heeds steps files waits)
    · intro middle made after _ act ⟨isCancelled, abides⟩
      have orderly := orderly_run leads steps files (earlier ++ .cancel :: middle)
      rw [run_append] at orderly
      rw [own_append, changes_append, ← List.append_assoc]
      exact ⟨act.cancelled isCancelled, abides.act orderly isCancelled act⟩
  rw [run_append, record_append, own_append, changes_append]
  exact abides.2

end World

/-- The message with which a cancelled run of a verdict is concluded. -/
def Verdict.stopMessage : Verdict → Text
  | .error (.scratch path error) => "Error: " ++ (RunError.scratch path error).message
  | _ => "Error: cancelled"

namespace Pipeline

/-- The error of the scratch directory that a run has met with. It changes the files twice at most:
it prepares the directory first, and writes the file of rules later on. -/
def scratchError? (pipeline : Pipeline) : List (Option OsError) → Option RunError
  | [some error] => some (.scratch pipeline.directory error)
  | [none, some error] =>
    some (.scratch (Path.join pipeline.directory Toolchain.rulesFile) error)
  | _ => none

/-- The message with which a cancelled run is concluded. -/
def stopMessage (pipeline : Pipeline) (known : List (Option OsError)) : Text :=
  match pipeline.scratchError? known with
  | some error => "Error: " ++ error.message
  | none => "Error: cancelled"

end Pipeline

namespace Task

variable {final : List (Option OsError) → Text} {known : List (Option OsError)} {next : Task}

theorem stops_conclude (verdict : Verdict) :
    (conclude (verdict.final true) next).Stops verdict.stopMessage := by
  cases verdict with
  | ok status => rfl
  | error error => cases error <;> rfl

theorem heeds_finishRun {verdict : Verdict} (fits : final known = verdict.stopMessage) :
    (finishRun verdict next).Heeds final known := by
  have heeds : (finale verdict next).Heeds final known := by
    change (conclude (verdict.final true) (awaitAll next)).Stops (final known)
    rw [fits]
    exact stops_conclude verdict
  rw [finishRun_eq]
  intro cancelled
  cases cancelled <;> exact heeds

theorem heeds_stage {tool : Tool} {command : Command} {failure : Text} {verdict : Verdict → Task}
    {goOn : Text → Task} (cancelled : (verdict (.error .cancelled)).Heeds final known)
    (failed : (verdict (.ok failure)).Heeds final known)
    (goesOn : ∀ output, (goOn output).Heeds final known) :
    (stage tool command failure verdict goOn).Heeds final known := by
  intro outcome
  apply holds_of_outcome outcome
  · exact cancelled
  · exact fun output _ => goesOn output
  · exact fun result => failed

theorem heeds_advance {message : Text} {count : Nat} (goesOn : next.Heeds final known) :
    (advance message count next).Heeds final known := goesOn

theorem heeds_forView {settings : Settings} {view : View} {thread : Task}
    (goesOn : next.Heeds final known) :
    (forView settings view thread next).Heeds final known := by
  unfold forView
  split <;> exact goesOn

end Task

namespace Pipeline

section heeds

variable {pipeline : Pipeline} {verdict : Verdict → Task}
  (verdicts : ∀ final known, pipeline.stopMessage known = final.stopMessage →
    (verdict final).Heeds pipeline.stopMessage known)

include verdicts

theorem heeds_compile {next : Task} (source : Text)
    (goesOn : next.Heeds pipeline.stopMessage [none]) :
    (pipeline.compile source verdict next).Heeds pipeline.stopMessage [] := by
  intro error
  cases error with
  | some error => exact verdicts _ _ rfl
  | none =>
      intro outcome
      apply Task.holds_of_outcome outcome
      · exact verdicts _ _ rfl
      · exact fun output _ => goesOn
      · exact fun result => verdicts (.ok _) _ rfl

theorem heeds_disassembleNative {known : List (Option OsError)}
    (unfailed : pipeline.stopMessage known = "Error: cancelled") :
    (pipeline.disassembleNative verdict).Heeds pipeline.stopMessage known := by
  have ok (status : Text) : (verdict (.ok status)).Heeds pipeline.stopMessage known :=
    verdicts _ _ unfailed
  have cancelled := verdicts (.error .cancelled) known unfailed
  refine Task.heeds_stage cancelled (ok _) fun _ => Task.heeds_advance ?_
  refine Task.heeds_stage cancelled (ok _) fun _ => Task.heeds_advance ?_
  exact Task.heeds_stage cancelled (ok _) fun _ => ok "Ready"

theorem heeds_disassembleDex (classFiles : List Text) :
    (pipeline.disassembleDex classFiles verdict).Heeds pipeline.stopMessage [none] := by
  intro error
  cases error with
  | some error => exact verdicts _ _ rfl
  | none =>
      refine Task.heeds_stage (verdicts _ _ rfl) (verdicts (.ok _) _ rfl) fun _ => ?_
      refine Task.heeds_advance (Task.heeds_forView ?_)
      split
      · exact heeds_disassembleNative verdicts rfl
      · exact verdicts (.ok _) _ rfl

theorem heeds_disassembleThen (source : Text) :
    (pipeline.disassembleThen source verdict).Heeds pipeline.stopMessage [] := by
  apply heeds_compile verdicts
  intro tree
  exact Task.heeds_forView (heeds_disassembleDex verdicts _)

theorem heeds_executeThen (source : Text) :
    (pipeline.executeThen source verdict).Heeds pipeline.stopMessage [] := by
  apply heeds_compile verdicts
  intro outcome
  dsimp only
  split
  · exact verdicts _ _ rfl
  · exact verdicts (.ok _) _ rfl

end heeds

theorem heeds_disassemble (pipeline : Pipeline) (source : Text) :
    (pipeline.disassemble source).Heeds pipeline.stopMessage [] :=
  heeds_disassembleThen (fun _ _ => Task.heeds_finishRun) source

theorem heeds_execute (pipeline : Pipeline) (source : Text) :
    (pipeline.execute source).Heeds pipeline.stopMessage [] :=
  heeds_executeThen (fun _ _ => Task.heeds_finishRun) source

end Pipeline

namespace World

/-- The tools that have been launched, those that were refused apart. -/
def launched (world : World) : List Launch := world.launches.filter fun launch => !launch.refused

/-- What a run tells that is cancelled after some choices. No tool is launched any more. When the
main thread is at its end the last status has the message that the run is cancelled, or that of the
error of the scratch directory if there was one, and nothing but empty contents come after it; and
there always are choices that lead there. -/
structure StopsAt (pipeline : Pipeline) (start : World) (earlier later : List Choice) : Prop where
  launched : (start.run (earlier ++ .cancel :: later)).launched = (start.run earlier).launched
  concluded : (start.run (earlier ++ .cancel :: later)).hasEnded 0 = true →
    EndsWith (pipeline.stopMessage
      (changes (own 0 (start.record (earlier ++ .cancel :: later)))))
      (start.run (earlier ++ .cancel :: later)).reports
  ends : ∃ rest, (start.run (earlier ++ .cancel :: (later ++ rest))).hasEnded 0 = true

theorem launched_of_cancelled (world : World) (cancelled : world.cancelled = true)
    (choices : List Choice) : (world.run choices).launched = world.launched := by
  suffices (world.run choices).cancelled = true ∧ (world.run choices).launched = world.launched
    from this.2
  refine holds_of_acts (fun after _ => after.cancelled = true ∧ after.launched = world.launched)
    ⟨cancelled, rfl⟩ ?_ (within_any world choices)
  intro earlier made after _ act ⟨isCancelled, same⟩
  exact ⟨act.cancelled isCancelled, (act.launches isCancelled).trans same⟩

theorem stopsAt_of_heeds {ending : Text → Prop} {pipeline : Pipeline} {task : Task}
    (leads : task.Leads ending) (heeds : task.Heeds pipeline.stopMessage []) (steps : Nat)
    (files : FileTree) {earlier : List Choice} (later : List Choice)
    (waits : (0, .wait) ∉ (new task steps files).record earlier) :
    StopsAt pipeline (new task steps files) earlier later := by
  refine ⟨?_, fun ended => ?_, ?_⟩
  · rw [run_append]
    exact launched_of_cancelled (((new task steps files).run earlier).step .cancel) rfl later
  · have isEnded := hasEnded_iff.1 ended
    cases abides_run leads heeds steps files later waits with
    | heeds main =>
        rw [isEnded] at main
        exact main.elim
    | stops main =>
        rw [isEnded] at main
        exact main.elim
    | concluded concluded => exact concluded.told
  · rcases (orderly_run leads steps files (earlier ++ .cancel :: later)).exists_ended with
      ⟨rest, ended⟩
    rw [← run_append, List.append_assoc] at ended
    exact ⟨rest, ended⟩

/-- A run of the pipeline that is cancelled before the main thread has waited for the others stops
there, whatever is chosen to happen before and after. -/
theorem stopsAt_of_cancel (pipeline : Pipeline) (source : Text) (files : FileTree)
    (earlier later : List Choice) :
    ((0, .wait) ∉ (new (pipeline.disassemble source) disassemblySteps files).record earlier →
      StopsAt pipeline (new (pipeline.disassemble source) disassemblySteps files) earlier later) ∧
    ((0, .wait) ∉ (new (pipeline.execute source) runSteps files).record earlier →
      StopsAt pipeline (new (pipeline.execute source) runSteps files) earlier later) :=
  ⟨stopsAt_of_heeds (pipeline.leads_disassemble source) (pipeline.heeds_disassemble source) _ files
      later,
    stopsAt_of_heeds (pipeline.leads_execute source) (pipeline.heeds_execute source) _ files later⟩

end World

/-- The pipeline that knows its tools by their names, with the default settings. -/
def Pipeline.plain : Pipeline :=
  ⟨⟨[], [], "adb", "d8", "dexdump", "android.jar", "kotlinc", []⟩, "/scratch", .default⟩

/-- The tree with nothing in it. -/
def FileTree.vacant : FileTree := ⟨.directory [], []⟩

def Deed.isWait : Deed → Bool
  | wait => true
  | _ => false

namespace World

/-- A run that shows the views and one that runs the program, both cancelled while the compiler
runs. -/
theorem stopsAt_of_cancel_kotlinc :
    (StopsAt .plain (new (Pipeline.plain.disassemble []) disassemblySteps .vacant)
      (.replicate 3 (.turn 0)) (.land 0 ⟨.ok ⟨0, []⟩, id⟩ :: .replicate 12 (.turn 0)) ∧
    ((new (Pipeline.plain.disassemble []) disassemblySteps .vacant).run
      (List.replicate 3 (.turn 0) ++ Choice.cancel ::
        .land 0 ⟨.ok ⟨0, []⟩, id⟩ :: .replicate 12 (.turn 0))).hasEnded 0 = true) ∧
    StopsAt .plain (new (Pipeline.plain.execute []) runSteps .vacant)
      (.replicate 3 (.turn 0)) (.land 0 ⟨.ok ⟨0, []⟩, id⟩ :: .replicate 9 (.turn 0)) ∧
    ((new (Pipeline.plain.execute []) runSteps .vacant).run
      (List.replicate 3 (.turn 0) ++ Choice.cancel ::
        .land 0 ⟨.ok ⟨0, []⟩, id⟩ :: .replicate 9 (.turn 0))).hasEnded 0 = true := by
  have notWaited {record : List (Nat × Deed)}
      (none : (record.any fun entry => entry.2.isWait) = false) : (0, .wait) ∉ record := by
    intro waited
    have isWait := List.any_eq_false.1 none _ waited
    exact isWait rfl
  refine ⟨⟨?_, by decide +kernel⟩, ?_, by decide +kernel⟩
  · exact (stopsAt_of_cancel .plain [] .vacant _ _).1 (notWaited (by decide +kernel))
  · exact (stopsAt_of_cancel .plain [] .vacant _ _).2 (notWaited (by decide +kernel))

end World

end CompiledViews
