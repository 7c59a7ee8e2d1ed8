import CompiledViews.Proofs.Run.Cancelled
import CompiledViews.Proofs.Run.MainPath

/-!
# The steps of a run that shows the views

In a run that is not cancelled each step of the main path comes after those before it have
succeeded, and the verdict is that of the first one that fails, whatever comes of the dumps beside
it. Every tool that fails, and the scratch directory if it cannot be written, has its output or
message logged once.
-/

namespace CompiledViews

namespace Deed

def tool? : Deed → Option Tool
  | launch tool _ => some tool
  | _ => none

/-- The result of a tool that has ended. -/
def result? : Deed → Option (Tool × ToolResult)
  | hear tool _ outcome => (stageResult? outcome).map fun result => (tool, result)
  | _ => none

end Deed

/-- The tools that are launched by deeds. -/
def launchedTools (deeds : List Deed) : List Tool := deeds.filterMap Deed.tool?

/-- The results of tools that deeds tell; a tool that could not be run counts as one that failed. -/
def results (deeds : List Deed) : List (Tool × ToolResult) := deeds.filterMap Deed.result?

/-- The tools that have succeeded. -/
def succeeded (results : List (Tool × ToolResult)) : List Tool :=
  results.filterMap fun result => if result.2.success then some result.1 else none

/-- The texts of the errors that are logged. -/
def errors (notes : List Note) : List Text :=
  notes.filterMap fun
    | .log text true => some text
    | _ => none

/-- What deeds note. -/
def notesOf (deeds : List Deed) : List Note := deeds.filterMap Deed.note?

section append

variable (earlier new : List Deed)

@[simp]
theorem launchedTools_append :
    launchedTools (earlier ++ new) = launchedTools earlier ++ launchedTools new := by
  simp [launchedTools]

@[simp]
theorem results_append : results (earlier ++ new) = results earlier ++ results new := by
  simp [results]

@[simp]
theorem notesOf_append : notesOf (earlier ++ new) = notesOf earlier ++ notesOf new := by
  simp [notesOf]

@[simp]
theorem succeeded_append (earlier new : List (Tool × ToolResult)) :
    succeeded (earlier ++ new) = succeeded earlier ++ succeeded new := by
  simp [succeeded]

@[simp]
theorem errors_append (earlier new : List Note) :
    errors (earlier ++ new) = errors earlier ++ errors new := by
  simp [errors]

end append

/-- The status that a verdict comes to. -/
def Verdict.status : Verdict → Text
  | .ok status => status
  | .error error => "Error: " ++ error.message

namespace Pipeline

variable (pipeline : Pipeline)

/-- The verdict of what the changes of the files and the tools of the main path have come to: that
of the first step that has failed. -/
def verdictOf (known : List (Option OsError)) (results : List (Tool × ToolResult)) : Verdict :=
  match pipeline.scratchError? known with
  | some error => .error error
  | none =>
    match results.find? fun result => !result.2.success with
    | some (tool, _) => .ok tool.failureStatus
    | none => .ok "Ready"

/-- What is logged of a tool that has ended: nothing unless it failed. -/
def complaint? (result : Tool × ToolResult) : Option Text :=
  if result.2.success then none else some (pipeline.complaint result.1 result.2.output)

/-- The views of which the dumps are made beside the main path once a tool of it has succeeded. -/
def viewsAfter (settings : Settings) : Tool → List View
  | .kotlinc => if settings.computes .byteCode then [.byteCode] else []
  | .dex => if settings.computes .dex then [.dex] else []
  | _ => []

end Pipeline

namespace Step

/-- The tools that steps run. -/
def tools (steps : List Step) : List Tool := steps.filterMap tool?

theorem tools_cons (step : Step) (steps : List Step) :
    tools (step :: steps) = step.tool?.toList ++ tools steps := by
  cases step <;> rfl

/-- Whether a step changes the files itself. -/
def changesFiles : Step → Bool
  | run _ => false
  | _ => true

/-- What the changes of steps come to that have all succeeded. -/
def unfailed (steps : List Step) : List (Option OsError) :=
  (steps.filter changesFiles).map fun _ => none

theorem unfailed_cons (step : Step) (steps : List Step) :
    unfailed (step :: steps) = (if step.changesFiles then [none] else []) ++ unfailed steps := by
  cases step <;> rfl

/-- What a step that succeeds tells: its change or its tool, and nothing else. -/
theorem Succeeds.tells {step : Step} {deeds : List Deed} (succeeds : step.Succeeds deeds) :
    launchedTools deeds = step.tool?.toList ∧ succeeded (results deeds) = step.tool?.toList ∧
      changes deeds = (if step.changesFiles then [none] else []) ∧ notesOf deeds = [] ∧
      starts deeds = [] ∧ ∀ result ∈ results deeds, result.2.success = true := by
  cases step with
  | run tool =>
      rcases succeeds with ⟨command, output, rfl⟩
      refine ⟨rfl, rfl, rfl, rfl, rfl, fun result member => ?_⟩
      have isOnly : result ∈ [(tool, (⟨0, output⟩ : ToolResult))] := member
      rcases List.mem_singleton.1 isOnly with rfl
      rfl
  | prepare =>
      rcases succeeds with rfl
      exact ⟨rfl, rfl, rfl, rfl, rfl, fun _ member => absurd member List.not_mem_nil⟩
  | writeRules =>
      rcases succeeds with rfl
      exact ⟨rfl, rfl, rfl, rfl, rfl, fun _ member => absurd member List.not_mem_nil⟩

end Step

namespace Pipeline

variable {pipeline : Pipeline} {step : Step} {steps : List Step} {deeds main : List Deed}
  {verdict : Verdict}

/-- Between two steps the main path neither runs tools nor changes files, and logs no error. -/
theorem Follows.silent (follows : pipeline.Follows step deeds) :
    launchedTools deeds = [] ∧ results deeds = [] ∧ changes deeds = [] ∧
      errors (notesOf deeds) = [] := by
  cases step with
  | prepare => rcases follows with rfl; exact ⟨rfl, rfl, rfl, rfl⟩
  | writeRules => rcases follows with rfl; exact ⟨rfl, rfl, rfl, rfl⟩
  | run tool =>
      cases tool with
      | kotlinc =>
          rcases follows with ⟨fork, rfl, ⟨_, command, rfl⟩ | ⟨_, rfl⟩⟩ <;>
            exact ⟨rfl, rfl, rfl, rfl⟩
      | dex =>
          rcases follows with ⟨fork, rfl, ⟨_, command, rfl⟩ | ⟨_, rfl⟩⟩ <;>
            exact ⟨rfl, rfl, rfl, rfl⟩
      | oatdump => rcases follows with ⟨output, rfl⟩; exact ⟨rfl, rfl, rfl, rfl⟩
      | _ => rcases follows with rfl; exact ⟨rfl, rfl, rfl, rfl⟩

/-- The threads that are started once a step has succeeded make the dumps of views. -/
theorem Follows.forks (follows : pipeline.Follows step deeds) :
    ∃ forks : List (View × Command), starts deeds = forks.map (fun fork => fork.1.dumpTask fork.2) ∧
      forks.map Prod.fst = step.tool?.toList.flatMap (viewsAfter pipeline.settings) := by
  have forked {view : View} {rest : List Deed} (forks : pipeline.ForksFor view rest) :
      ∃ forks : List (View × Command),
        starts rest = forks.map (fun fork => fork.1.dumpTask fork.2) ∧
        forks.map Prod.fst = if pipeline.settings.computes view then [view] else [] := by
    rcases forks with ⟨computed, command, rfl⟩ | ⟨notComputed, rfl⟩
    · exact ⟨[(view, command)], rfl, by simp [computed]⟩
    · exact ⟨[], rfl, by simp [notComputed]⟩
  cases step with
  | prepare => rcases follows with rfl; exact ⟨[], rfl, rfl⟩
  | writeRules => rcases follows with rfl; exact ⟨[], rfl, rfl⟩
  | run tool =>
      cases tool with
      | kotlinc =>
          rcases follows with ⟨fork, rfl, forks⟩
          change ∃ forks : List (View × Command),
            starts fork = forks.map (fun fork => fork.1.dumpTask fork.2) ∧ forks.map Prod.fst = _
          rw [Step.tool?, Option.toList_some, List.flatMap_singleton]
          exact forked forks
      | dex =>
          rcases follows with ⟨fork, rfl, forks⟩
          change ∃ forks : List (View × Command),
            starts fork = forks.map (fun fork => fork.1.dumpTask fork.2) ∧ forks.map Prod.fst = _
          rw [Step.tool?, Option.toList_some, List.flatMap_singleton]
          exact forked forks
      | oatdump => rcases follows with ⟨output, rfl⟩; exact ⟨[], rfl, rfl⟩
      | _ => rcases follows with rfl; exact ⟨[], rfl, rfl⟩

/-- What a step that fails tells: its change or its tool, and for a tool what is logged of it. -/
theorem Fails.tells (fails : pipeline.Fails step deeds verdict) :
    launchedTools deeds = step.tool?.toList ∧ succeeded (results deeds) = [] ∧
      starts deeds = [] ∧ errors (notesOf deeds) = (results deeds).filterMap pipeline.complaint? ∧
      verdict ≠ .ok "Ready" := by
  cases step with
  | prepare =>
      rcases fails with ⟨error, rfl, rfl⟩
      exact ⟨rfl, rfl, rfl, rfl, by simp⟩
  | writeRules =>
      rcases fails with ⟨error, rfl, rfl⟩
      exact ⟨rfl, rfl, rfl, rfl, by simp⟩
  | run tool =>
      rcases fails with ⟨command, outcome, result, isResult, failed, rfl, rfl⟩
      have told : results [.launch tool command, .hear tool command outcome,
          .log (pipeline.complaint tool result.output) true] = [(tool, result)] := by
        simp [results, List.filterMap_cons, Deed.result?, isResult]
      refine ⟨rfl, ?_, rfl, ?_, ?_⟩
      · simp [told, succeeded, failed]
      · rw [told]
        simp [complaint?, failed, notesOf, errors, List.filterMap_cons, Deed.note?]
      · simp only [ne_eq, Except.ok.injEq]
        cases tool <;> decide

/-- While no more than one tool has been launched, all but the last one have succeeded. -/
theorem gated_of_single (step : Step) {part whole : List Deed} (isPart : part <+: whole)
    (launched : launchedTools whole = step.tool?.toList) :
    (launchedTools part).dropLast <+: succeeded (results part) := by
  have few : (launchedTools part).length ≤ step.tool?.toList.length := by
    rw [← launched]
    exact (isPart.filterMap Deed.tool?).length_le
  have one : step.tool?.toList.length ≤ 1 := by cases step <;> simp [Step.tool?]
  have none : (launchedTools part).dropLast = [] := by
    rw [← List.length_eq_zero_iff, List.length_dropLast]
    omega
  rw [none]
  exact List.nil_prefix

section passes

variable (passes : pipeline.Passes steps main verdict)

include passes

/-- The tools that succeed on the main path are the first ones of it, in their order, and at most
one more is launched. -/
theorem Passes.tools_prefix :
    succeeded (results main) <+: launchedTools main ∧ launchedTools main <+: Step.tools steps := by
  induction passes with
  | all => exact ⟨List.nil_prefix, List.nil_prefix⟩
  | success succeeds follows _ ih =>
      rcases succeeds.tells with ⟨launched, won, _⟩
      rcases follows.silent with ⟨noLaunch, noResult, _⟩
      simp only [launchedTools_append, results_append, succeeded_append, launched, won, noLaunch,
        noResult, List.nil_append, Step.tools_cons, List.prefix_append_right_inj]
      exact ih
  | failure fails =>
      rcases fails.tells with ⟨launched, won, _⟩
      rw [launched, won, Step.tools_cons]
      exact ⟨List.nil_prefix, List.prefix_append _ _⟩

/-- Up to every point of the main path all tools that have been launched have succeeded, but for
the last one. -/
theorem Passes.gated {part : List Deed} (isPart : part <+: main) :
    (launchedTools part).dropLast <+: succeeded (results part) := by
  induction passes generalizing part with
  | all =>
      rcases List.prefix_nil.1 isPart with rfl
      exact List.nil_prefix
  | @success step steps own more rest verdict succeeds follows _ ih =>
      rcases succeeds.tells with ⟨launched, won, _⟩
      rcases follows.silent with ⟨noLaunch, noResult, _⟩
      rw [← List.append_assoc] at isPart
      rcases List.prefix_or_prefix_of_prefix isPart (List.prefix_append (own ++ more) rest) with
        short | ⟨later, rfl⟩
      · refine gated_of_single step short ?_
        rw [launchedTools_append, launched, noLaunch, List.append_nil]
      · rw [List.prefix_append_right_inj] at isPart
        have later_gated := ih isPart
        simp only [launchedTools_append, results_append, succeeded_append, launched, won, noLaunch,
          noResult, List.append_nil]
        cases none : launchedTools later with
        | nil =>
            rw [List.append_nil]
            exact (List.dropLast_prefix _).trans (List.prefix_append _ _)
        | cons first others =>
            rw [List.dropLast_append_of_ne_nil (List.cons_ne_nil first others), ← none,
              List.prefix_append_right_inj]
            exact later_gated
  | failure fails => exact gated_of_single _ isPart fails.tells.1

/-- The threads that are started make the dumps of views, one for each whose dump is made once a
tool that has succeeded has done so. -/
theorem Passes.forks : ∃ forks : List (View × Command),
    starts main = forks.map (fun fork => fork.1.dumpTask fork.2) ∧
      forks.map Prod.fst = (succeeded (results main)).flatMap (viewsAfter pipeline.settings) := by
  induction passes with
  | all => exact ⟨[], rfl, rfl⟩
  | success succeeds follows _ ih =>
      rcases succeeds.tells with ⟨_, won, _, _, noStart, _⟩
      rcases follows.silent with ⟨_, noResult, _⟩
      rcases follows.forks with ⟨forks, started, views⟩
      rcases ih with ⟨later, startedLater, viewsLater⟩
      refine ⟨forks ++ later, ?_, ?_⟩
      · rw [starts_append, starts_append, noStart, started, startedLater, List.map_append]
        rfl
      · rw [results_append, results_append, noResult, List.nil_append, succeeded_append, won,
          List.flatMap_append, List.map_append, views, viewsLater]
  | failure fails =>
      rcases fails.tells with ⟨_, won, noStart, _⟩
      exact ⟨[], noStart, by rw [won]; rfl⟩

/-- Up to every point of the main path such a thread is started only after that tool has
succeeded. -/
theorem Passes.forks_gated {part : List Deed} (isPart : part <+: main) {child : Task}
    (isStarted : child ∈ starts part) : ∃ tool ∈ succeeded (results part),
      ∃ view ∈ viewsAfter pipeline.settings tool, ∃ command, child = view.dumpTask command := by
  induction passes generalizing part with
  | all =>
      rcases List.prefix_nil.1 isPart with rfl
      exact absurd isStarted List.not_mem_nil
  | @success step steps own more rest verdict succeeds follows _ ih =>
      rcases succeeds.tells with ⟨_, won, _, _, noStart, _⟩
      rcases follows.silent with ⟨_, noResult, _⟩
      -- The thread is started between this step and the next one, or later.
      have here (between later : List Deed) (started : child ∈ starts between)
          (isBetween : between <+: more) : ∃ tool ∈ succeeded (results (own ++ (between ++ later))),
          ∃ view ∈ viewsAfter pipeline.settings tool, ∃ command, child = view.dumpTask command := by
        rcases follows.forks with ⟨forks, isForks, views⟩
        have inMore := (isBetween.filterMap Deed.start?).subset started
        change child ∈ starts more at inMore
        rw [isForks] at inMore
        rcases List.mem_map.1 inMore with ⟨⟨view, command⟩, isFork, rfl⟩
        have isView : view ∈ step.tool?.toList.flatMap (viewsAfter pipeline.settings) := by
          rw [← views]
          exact List.mem_map.2 ⟨_, isFork, rfl⟩
        rcases List.mem_flatMap.1 isView with ⟨tool, isTool, after⟩
        refine ⟨tool, ?_, view, after, command, rfl⟩
        rw [results_append, succeeded_append, won]
        exact List.mem_append_left _ isTool
      rcases List.prefix_or_prefix_of_prefix isPart (List.prefix_append own (more ++ rest)) with
        short | ⟨after, rfl⟩
      · have none := (short.filterMap Deed.start?).subset isStarted
        change child ∈ starts own at none
        simp [noStart] at none
      · rw [List.prefix_append_right_inj] at isPart
        rw [starts_append, noStart, List.nil_append] at isStarted
        rcases List.prefix_or_prefix_of_prefix isPart (List.prefix_append more rest) with
          short | ⟨later, rfl⟩
        · have found := here _ [] isStarted short
          rwa [List.append_nil] at found
        · rw [List.prefix_append_right_inj] at isPart
          rw [starts_append] at isStarted
          rcases List.mem_append.1 isStarted with now | isLater
          · exact here _ _ now List.prefix_rfl
          · rcases ih isPart isLater with ⟨tool, hasWon, found⟩
            refine ⟨tool, ?_, found⟩
            rw [results_append, results_append, succeeded_append, succeeded_append]
            exact List.mem_append_right _ (List.mem_append_right _ hasWon)
  | failure fails =>
      have none := (isPart.filterMap Deed.start?).subset isStarted
      change child ∈ starts _ at none
      simp [fails.tells.2.2.1] at none

/-- The errors that are logged on the main path are those of the tools that have failed. -/
theorem Passes.errors_eq :
    errors (notesOf main) = (results main).filterMap pipeline.complaint? := by
  induction passes with
  | all => rfl
  | success succeeds follows _ ih =>
      rcases succeeds.tells with ⟨_, _, _, noNote, _, allWon⟩
      rcases follows.silent with ⟨_, noResult, _, noError⟩
      have noComplaint : (results _).filterMap pipeline.complaint? = [] :=
        List.filterMap_eq_nil_iff.2 fun result member => if_pos (allWon result member)
      rw [notesOf_append, notesOf_append, noNote, errors_append, errors_append, noError,
        results_append, results_append, noResult, List.filterMap_append, List.filterMap_append,
        noComplaint, ih]
      rfl
  | failure fails => exact fails.tells.2.2.2.1

/-- The verdict tells of success if all steps have succeeded, and only then. -/
theorem Passes.ready_iff : verdict = .ok "Ready" ↔
    changes main = Step.unfailed steps ∧ succeeded (results main) = Step.tools steps := by
  induction passes with
  | all => simp [changes, Step.tools, Step.unfailed, results, succeeded]
  | success succeeds follows _ ih =>
      rcases succeeds.tells with ⟨_, won, changed, _⟩
      rcases follows.silent with ⟨_, noResult, noChange, _⟩
      rw [ih, Step.tools_cons, Step.unfailed_cons, results_append, results_append, noResult,
        List.nil_append, succeeded_append, won, changes_append, changes_append, noChange,
        List.nil_append, changed, List.append_cancel_left_eq, List.append_cancel_left_eq]
  | @failure step steps deeds verdict fails =>
      refine iff_of_false fails.tells.2.2.2.2 ?_
      rintro ⟨changed, won⟩
      rw [fails.tells.2.1, Step.tools_cons] at won
      cases step with
      | run tool => simp [Step.tool?] at won
      | prepare =>
          rcases fails with ⟨error, rfl, _⟩
          simp [changes, Step.unfailed_cons, Step.changesFiles, Deed.change?] at changed
      | writeRules =>
          rcases fails with ⟨error, rfl, _⟩
          simp [changes, Step.unfailed_cons, Step.changesFiles, Deed.change?] at changed

end passes

/-- A step that succeeds leaves the verdict to those after it. -/
theorem verdictOf_success {own more rest : List Deed} (succeeds : step.Succeeds own)
    (follows : pipeline.Follows step more) (known : List (Option OsError)) :
    pipeline.verdictOf known (results (own ++ (more ++ rest))) =
      pipeline.verdictOf known (results rest) := by
  rcases succeeds.tells with ⟨_, _, _, _, _, allWon⟩
  rcases follows.silent with ⟨_, noResult, _⟩
  have noneFailed : ((results own).find? fun result => !result.2.success) = none := by
    rw [List.find?_eq_none]
    intro result member
    simp [allWon result member]
  simp only [verdictOf, results_append, noResult, List.nil_append, List.find?_append, noneFailed,
    Option.none_or]

theorem verdictOf_failure {tool : Tool} (fails : pipeline.Fails (.run tool) deeds verdict)
    (known : List (Option OsError)) (noError : pipeline.scratchError? known = none) :
    changes deeds = [] ∧ verdict = pipeline.verdictOf known (results deeds) := by
  rcases fails with ⟨command, outcome, result, isResult, failed, rfl, rfl⟩
  refine ⟨rfl, ?_⟩
  simp [verdictOf, noError, results, List.filterMap_cons, Deed.result?, isResult, failed]

theorem changes_success {own more rest : List Deed} (succeeds : step.Succeeds own)
    (follows : pipeline.Follows step more) :
    changes (own ++ (more ++ rest)) =
      (if step.changesFiles then [none] else []) ++ changes rest := by
  rcases succeeds.tells with ⟨_, _, changed, _⟩
  rcases follows.silent with ⟨_, _, noChange, _⟩
  rw [changes_append, changes_append, noChange, changed, List.nil_append]

/-- On steps that only run tools the verdict is that of the first tool that fails. -/
theorem Passes.verdict_of_tools (passes : pipeline.Passes steps main verdict)
    (run : ∀ step ∈ steps, ∃ tool, step = .run tool) (known : List (Option OsError))
    (noError : pipeline.scratchError? known = none) :
    changes main = [] ∧ verdict = pipeline.verdictOf known (results main) := by
  induction passes with
  | all =>
      refine ⟨rfl, ?_⟩
      rw [verdictOf, noError]
      rfl
  | success succeeds follows _ ih =>
      rcases List.forall_mem_cons.1 run with ⟨⟨tool, rfl⟩, others⟩
      rcases ih others with ⟨noChange, isVerdict⟩
      rw [changes_success succeeds follows, verdictOf_success succeeds follows, noChange]
      exact ⟨rfl, isVerdict⟩
  | failure fails =>
      rcases List.forall_mem_cons.1 run with ⟨⟨tool, rfl⟩, _⟩
      exact verdictOf_failure fails known noError

/-- The verdict of the main path is that of the first step that fails. -/
theorem Passes.verdict_eq
    (passes : pipeline.Passes (Pipeline.steps pipeline.settings) main verdict) :
    verdict = pipeline.verdictOf (changes main) (results main) := by
  cases passes with
  | failure fails =>
      rcases fails with ⟨error, rfl, rfl⟩
      rfl
  | success succeeds follows passes =>
      rw [changes_success succeeds follows, verdictOf_success succeeds follows]
      cases passes with
      | failure fails =>
          rcases verdictOf_failure fails [none] rfl with ⟨noChange, isVerdict⟩
          rw [noChange]
          exact isVerdict
      | success succeeds follows passes =>
          rw [changes_success succeeds follows, verdictOf_success succeeds follows]
          cases passes with
          | failure fails =>
              rcases fails with ⟨error, rfl, rfl⟩
              rfl
          | success succeeds follows passes =>
              have runs : ∀ step ∈ (.run .dex :: if pipeline.settings.computes .oat then
                  [.run .push, .run .dex2oat, .run .oatdump] else [] : List Step),
                  ∃ tool, step = .run tool := by
                split <;> simp
              rw [changes_success succeeds follows, verdictOf_success succeeds follows]
              rcases passes.verdict_of_tools runs [none, none] rfl with ⟨noChange, isVerdict⟩
              rw [noChange]
              exact isVerdict

end Pipeline

end CompiledViews
