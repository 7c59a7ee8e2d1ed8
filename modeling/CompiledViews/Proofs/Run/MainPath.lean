import CompiledViews.Proofs.Run.Threads

/-!
# The main path of a run

The main thread of a run that shows the views takes steps one after the other: it prepares the
scratch directory, writes the file of rules, and runs tools. What it does is given here step by
step: a step that succeeds is followed by reports and maybe by a new thread, and the next step; a
step that fails is the last one, and gives the verdict.
-/

namespace CompiledViews

/-- A step of the main path. -/
inductive Step where
  | prepare
  | writeRules
  | run (tool : Tool)
deriving DecidableEq

namespace Step

def tool? : Step → Option Tool
  | run tool => some tool
  | _ => none

/-- The deeds of a step that succeeds. -/
def Succeeds : Step → List Deed → Prop
  | prepare, deeds | writeRules, deeds => deeds = [.change none]
  | run tool, deeds => ∃ command output,
    deeds = [.launch tool command, .hear tool command (.ok ⟨0, output⟩)]

end Step

/-- The status of a run in which a tool has failed. -/
def Tool.failureStatus : Tool → Text
  | kotlinc => "Error compiling Kotlin"
  | javap => "Error Disassembling Java ByteCode"
  | dex => "Error creating DEX"
  | dexdump => "Error creating DEX dump"
  | push => "Error pushing code to device"
  | dex2oat => "Error compiling OAT"
  | oatdump => "Error creating oat dump"
  | java => "Error running code"

/-- The status of a thread that has made the dump of a view. -/
def View.doneStatus : View → Text
  | byteCode => "Disassembled Java ByteCode"
  | dex => "Created DEX dump"
  | oat => "Created oat dump"

/-- The thread that makes the dump of a view. -/
def View.dumpTask (view : View) (command : Command) : Task :=
  .dump view.tool command view view.format view.doneStatus view.tool.failureStatus

namespace Pipeline

/-- The tools of the main path, in their order. -/
def mainTools (settings : Settings) : List Tool :=
  [Tool.kotlinc, .dex] ++ if settings.computes .oat then [Tool.push, .dex2oat, .oatdump] else []

/-- The steps of the main path, in their order. -/
def steps (settings : Settings) : List Step :=
  [Step.prepare, .run .kotlinc, .writeRules, .run .dex] ++
    if settings.computes .oat then [Step.run .push, .run .dex2oat, .run .oatdump] else []

theorem filterMap_tool?_steps (settings : Settings) :
    (steps settings).filterMap Step.tool? = mainTools settings := by
  unfold steps mainTools
  split <;> rfl

variable (pipeline : Pipeline)

/-- What is logged of a tool that has failed: its output, from the compiler without the path of the
scratch directory. -/
def complaint : Tool → Text → Text
  | .kotlinc, output => Toolchain.stripDirectory pipeline.directory output
  | _, output => output

/-- The deeds of a step that fails, and its verdict. -/
def Fails : Step → List Deed → Verdict → Prop
  | .prepare, deeds, verdict => ∃ error,
    deeds = [.change (some error)] ∧ verdict = .error (.scratch pipeline.directory error)
  | .writeRules, deeds, verdict => ∃ error, deeds = [.change (some error)] ∧
    verdict = .error (.scratch (Path.join pipeline.directory Toolchain.rulesFile) error)
  | .run tool, deeds, verdict => ∃ command outcome result,
    stageResult? outcome = some result ∧ result.success = false ∧
    deeds = [.launch tool command, .hear tool command outcome,
      .log (pipeline.complaint tool result.output) true] ∧
    verdict = .ok tool.failureStatus

/-- The part for a view: a thread of its own if the view is computed, else a status. -/
def ForksFor (view : View) (deeds : List Deed) : Prop :=
  pipeline.settings.computes view = true ∧ (∃ command, deeds = [.start (view.dumpTask command)]) ∨
    pipeline.settings.computes view = false ∧ deeds = [.status []]

/-- The deeds between a step that has succeeded and the next one. -/
def Follows : Step → List Deed → Prop
  | .run .kotlinc, deeds => ∃ fork, deeds = .status "Kotlin compiled" :: fork ∧
    pipeline.ForksFor .byteCode fork
  | .run .dex, deeds => ∃ fork, deeds = .status (if pipeline.settings.optimize then
      "Optimized DEX with R8" else "Compiled DEX with D8") :: fork ∧ pipeline.ForksFor .dex fork
  | .run .push, deeds => deeds = [.status "Pushed code to device…"]
  | .run .dex2oat, deeds => deeds = [.status "Disassembling OAT…"]
  | .run .oatdump, deeds => ∃ output,
    deeds = [.offer .oat (Dump.Format.oatdump.content output), .status View.oat.doneStatus]
  | _, deeds => deeds = []

/-- The deeds of steps up to a verdict. -/
inductive Passes : List Step → List Deed → Verdict → Prop where
  | all : Passes [] [] (.ok "Ready")
  | success {step : Step} {steps : List Step} {own more rest : List Deed} {verdict : Verdict}
      (succeeds : step.Succeeds own) (follows : pipeline.Follows step more)
      (passes : Passes steps rest verdict) : Passes (step :: steps) (own ++ (more ++ rest)) verdict
  | failure {step : Step} {steps : List Step} {deeds : List Deed} {verdict : Verdict}
      (fails : pipeline.Fails step deeds verdict) : Passes (step :: steps) deeds verdict

variable {pipeline} {verdict : Verdict → Task}

/-- Deeds that are those of steps, and then those of their verdict. -/
def Takes (pipeline : Pipeline) (verdict : Verdict → Task) (steps : List Step)
    (deeds : List Deed) : Prop :=
  ∃ main final rest, deeds = main ++ rest ∧ pipeline.Passes steps main final ∧
    (verdict final).Does rest

theorem takes_success {step : Step} {steps : List Step} {own more rest : List Deed}
    (succeeds : step.Succeeds own) (follows : pipeline.Follows step more)
    (takes : pipeline.Takes verdict steps rest) :
    pipeline.Takes verdict (step :: steps) (own ++ (more ++ rest)) := by
  rcases takes with ⟨main, final, last, rfl, passes, does⟩
  exact ⟨_, final, last, by simp, .success succeeds follows passes, does⟩

theorem takes_failure {step : Step} {steps : List Step} {deeds rest : List Deed}
    {final : Verdict} (fails : pipeline.Fails step deeds final) (does : (verdict final).Does rest) :
    pipeline.Takes verdict (step :: steps) (deeds ++ rest) :=
  ⟨deeds, final, rest, rfl, .failure fails, does⟩

/-- A tool has succeeded only if it could be run. -/
theorem ok_of_success {outcome : Outcome} {result : ToolResult}
    (isResult : stageResult? outcome = some result) (success : result.success = true) :
    ∃ output, outcome = .ok ⟨0, output⟩ ∧ result = ⟨0, output⟩ := by
  cases outcome with
  | ok found =>
      obtain rfl : found = result := by simpa [stageResult?] using isResult
      rcases found with ⟨exitCode, output⟩
      obtain rfl : exitCode = 0 := by simpa [ToolResult.success] using success
      exact ⟨output, rfl, rfl⟩
  | error error =>
      exfalso
      cases error <;> simp [stageResult?] at isResult <;>
        simp [← isResult, ToolResult.success] at success

/-- What a step that runs a tool does: the tool succeeds, or its output is logged. -/
theorem does_run {tool : Tool} {command : Command} {stopped : Task}
    {goOn failed : ToolResult → Task} {deeds : List Deed}
    (does : (Task.call tool command fun outcome =>
      match stageResult? outcome with
      | none => stopped
      | some result => if result.success then goOn result else failed result).Does deeds) :
    (∃ output rest,
        deeds = [Deed.launch tool command, .hear tool command (.ok ⟨0, output⟩)] ++ rest ∧
        (goOn ⟨0, output⟩).Does rest) ∨
      ∃ outcome result rest, stageResult? outcome = some result ∧ result.success = false ∧
        deeds = .launch tool command :: .hear tool command outcome :: rest ∧
        (failed result).Does rest := by
  rcases does with ⟨outcome, rest, allowed, rfl, does⟩
  cases isResult : stageResult? outcome with
  | none =>
      cases outcome with
      | ok result => simp [stageResult?] at isResult
      | error error => cases error <;> simp_all [stageResult?]
  | some result =>
      simp only [isResult] at does
      split at does
      case isTrue success =>
        rcases ok_of_success isResult success with ⟨output, rfl, rfl⟩
        exact .inl ⟨output, rest, rfl, does⟩
      case isFalse failure =>
        exact .inr ⟨outcome, result, rest, isResult, by simpa using failure, rfl, does⟩

theorem takes_run {tool : Tool} {command : Command} {stopped : Task}
    {goOn failed : ToolResult → Task} {steps : List Step} {deeds : List Deed}
    (does : (Task.call tool command fun outcome =>
      match stageResult? outcome with
      | none => stopped
      | some result => if result.success then goOn result else failed result).Does deeds)
    (logs : ∀ result, failed result = .log (pipeline.complaint tool result.output) true
      (verdict (.ok tool.failureStatus)))
    (goesOn : ∀ output rest, (goOn ⟨0, output⟩).Does rest → ∃ more last, rest = more ++ last ∧
      pipeline.Follows (.run tool) more ∧ pipeline.Takes verdict steps last) :
    pipeline.Takes verdict (.run tool :: steps) deeds := by
  rcases does_run does with ⟨output, rest, rfl, later⟩ |
    ⟨outcome, result, rest, isResult, failed, rfl, later⟩
  · rcases goesOn output rest later with ⟨more, last, rfl, follows, takes⟩
    exact takes_success ⟨command, output, rfl⟩ follows takes
  · rw [logs] at later
    rcases later with ⟨last, rfl, later⟩
    have fails : pipeline.Fails (.run tool) [.launch tool command, .hear tool command outcome,
        .log (pipeline.complaint tool result.output) true] (.ok tool.failureStatus) :=
      ⟨command, outcome, result, isResult, failed, rfl, rfl⟩
    exact takes_failure fails later

theorem takes_stage {tool : Tool} {command : Command} {goOn : Text → Task} {steps : List Step}
    {deeds : List Deed} (plain : ∀ output, pipeline.complaint tool output = output)
    (does : (Task.stage tool command tool.failureStatus verdict goOn).Does deeds)
    (goesOn : ∀ output rest, (goOn output).Does rest → ∃ more last, rest = more ++ last ∧
      pipeline.Follows (.run tool) more ∧ pipeline.Takes verdict steps last) :
    pipeline.Takes verdict (.run tool :: steps) deeds :=
  takes_run does (fun result => by rw [plain]) goesOn

theorem does_forView {view : View} {command : Command} {next : Task} {deeds : List Deed}
    (does : (Task.forView pipeline.settings view (view.dumpTask command) next).Does deeds) :
    ∃ fork rest, deeds = fork ++ rest ∧ pipeline.ForksFor view fork ∧ next.Does rest := by
  unfold Task.forView at does
  split at does
  case isTrue computed =>
    rcases does with ⟨rest, rfl, does⟩
    exact ⟨[_], rest, rfl, .inl ⟨computed, command, rfl⟩, does⟩
  case isFalse notComputed =>
    rcases does with ⟨rest, rfl, does⟩
    exact ⟨[_], rest, rfl, .inr ⟨by simpa using notComputed, rfl⟩, does⟩

/-- What a step that changes the files does. -/
theorem takes_change {step : Step} {action : FileAction Unit} {next : Option OsError → Task}
    {steps : List Step} {deeds : List Deed} {scratch : OsError → RunError}
    (fails : ∀ error, pipeline.Fails step [.change (some error)] (.error (scratch error)))
    (succeeds : step.Succeeds [.change none]) (follows : pipeline.Follows step [])
    (does : (Task.change action next).Does deeds)
    (stops : ∀ error, next (some error) = verdict (.error (scratch error)))
    (goesOn : ∀ rest, (next none).Does rest → pipeline.Takes verdict steps rest) :
    pipeline.Takes verdict (step :: steps) deeds := by
  rcases does with ⟨error, rest, rfl, does⟩
  cases error with
  | some error =>
      rw [stops error] at does
      exact takes_failure (fails error) does
  | none => exact takes_success succeeds follows (goesOn rest does)

theorem takes_disassembleNative {deeds : List Deed}
    (does : (pipeline.disassembleNative verdict).Does deeds) :
    pipeline.Takes verdict [.run .push, .run .dex2oat, .run .oatdump] deeds := by
  refine takes_stage (fun _ => rfl) does fun _ rest does => ?_
  rcases does with ⟨last, rfl, does⟩
  refine ⟨[_], last, rfl, rfl, takes_stage (fun _ => rfl) does fun _ rest does => ?_⟩
  rcases does with ⟨last, rfl, does⟩
  refine ⟨[_], last, rfl, rfl, takes_stage (fun _ => rfl) does fun output rest does => ?_⟩
  rcases does with ⟨_, rfl, last, rfl, does⟩
  exact ⟨[_, _], last, rfl, ⟨output, rfl⟩, [], _, last, rfl, .all, does⟩

theorem takes_disassembleDex {classFiles : List Text} {deeds : List Deed}
    (does : (pipeline.disassembleDex classFiles verdict).Does deeds) :
    pipeline.Takes verdict (.writeRules :: .run .dex :: if pipeline.settings.computes .oat then
      [.run .push, .run .dex2oat, .run .oatdump] else []) deeds := by
  refine takes_change (fun error => ⟨error, rfl, rfl⟩) rfl rfl does (fun _ => rfl)
    fun rest does => takes_stage (fun _ => rfl) does fun _ rest does => ?_
  rcases does with ⟨_, rfl, does⟩
  rcases does_forView does with ⟨fork, last, rfl, forks, does⟩
  refine ⟨_ :: fork, last, rfl, ⟨fork, rfl, forks⟩, ?_⟩
  split at does
  case isTrue computed =>
    rw [if_pos computed]
    exact takes_disassembleNative does
  case isFalse notComputed =>
    rw [if_neg notComputed]
    exact ⟨[], _, last, rfl, .all, does⟩

/-- The main thread of a run that shows the views takes the steps of the main path. -/
theorem takes_disassembleThen {source : Text} {deeds : List Deed}
    (does : (pipeline.disassembleThen source verdict).Does deeds) :
    pipeline.Takes verdict (steps pipeline.settings) deeds := by
  refine takes_change (fun error => ⟨error, rfl, rfl⟩) rfl rfl does (fun _ => rfl) fun _ does => ?_
  refine takes_run does (fun _ => rfl) fun _ rest does => ?_
  rcases does with ⟨_, rfl, tree, does⟩
  rcases does_forView does with ⟨fork, last, rfl, forks, does⟩
  exact ⟨_ :: fork, last, rfl, ⟨fork, rfl, forks⟩, takes_disassembleDex does⟩

end Pipeline

/-- The deeds of the main thread that conclude a run of a verdict. -/
def Verdict.closing : Verdict → List Deed
  | .ok status => [.conclude status]
  | .error .cancelled => [.conclude "Error: cancelled"]
  | .error (.scratch path error) =>
    [.log (RunError.scratch path error).message true,
      .conclude ("Error: " ++ (RunError.scratch path error).message)]

namespace Task

theorem does_fillEmpty {views : List View} {deeds : List Deed}
    (does : (fillEmpty views).Does deeds) : deeds = views.map fun view => .offer view .empty := by
  induction views generalizing deeds with
  | nil => exact does
  | cons view views ih =>
      rcases does with ⟨rest, rfl, does⟩
      rw [ih does, List.map_cons]

theorem does_conclude {verdict : Verdict} {next : Task} {deeds : List Deed}
    (does : (conclude verdict next).Does deeds) :
    ∃ rest, deeds = verdict.closing ++ rest ∧ next.Does rest := by
  cases verdict with
  | ok status => exact does
  | error error =>
      cases error with
      | cancelled => exact does
      | scratch path error =>
          rcases does with ⟨_, rfl, rest, rfl, does⟩
          exact ⟨rest, rfl, does⟩

theorem does_finishRun {verdict : Verdict} {next : Task} {deeds : List Deed}
    (does : (finishRun verdict next).Does deeds) :
    ∃ rest, deeds = .wait :: (verdict.closing ++ .wait :: rest) ∧ next.Does rest := by
  rw [finishRun_eq] at does
  rcases does with ⟨_, rfl, does⟩
  have unchanged : verdict.final false = verdict := by cases verdict <;> rfl
  change (conclude (verdict.final false) (awaitAll next)).Does _ at does
  rw [unchanged] at does
  rcases does_conclude does with ⟨_, rfl, rest, rfl, filled⟩
  exact ⟨rest, rfl, filled⟩

end Task

namespace Pipeline

/-- What the main thread of a run that shows the views does: it takes its steps, waits for the
others, concludes with the verdict, and fills. -/
theorem does_disassemble {pipeline : Pipeline} {source : Text} {deeds : List Deed}
    (does : (pipeline.disassemble source).Does deeds) : ∃ main verdict,
      pipeline.Passes (steps pipeline.settings) main verdict ∧
      deeds = .status "Compiling and disassembling…" :: (main ++ Deed.wait :: (verdict.closing ++
        Deed.wait :: pipeline.settings.computedViews.map fun view => .offer view .empty)) := by
  rcases does with ⟨_, rfl, does⟩
  rcases takes_disassembleThen does with ⟨main, verdict, rest, rfl, passes, does⟩
  rcases Task.does_finishRun does with ⟨fills, rfl, filled⟩
  rcases Task.does_fillEmpty filled with rfl
  exact ⟨main, verdict, passes, rfl⟩

/-- What a thread that makes a dump does. -/
theorem does_dumpTask {view : View} {command : Command} {deeds : List Deed}
    (does : (view.dumpTask command).Does deeds) : ∃ outcome result,
      stageResult? outcome = some result ∧
      deeds = .launch view.tool command :: .hear view.tool command outcome ::
        if result.success then
          [.offer view (view.format.content result.output), .status view.doneStatus]
        else [.log result.output true, .status view.tool.failureStatus] := by
  rcases does_run does with ⟨output, rest, rfl, later⟩ |
    ⟨outcome, result, rest, isResult, failed, rfl, later⟩
  · rcases later with ⟨_, rfl, _, rfl, rfl⟩
    exact ⟨.ok ⟨0, output⟩, ⟨0, output⟩, rfl, rfl⟩
  · rcases later with ⟨_, rfl, _, rfl, rfl⟩
    exact ⟨outcome, result, isResult, by simp [failed]⟩

end Pipeline

end CompiledViews
