import CompiledViews.Proofs.Run.Steps

/-!
# The outcome of a run that shows the views

What a run that is not cancelled tells at every point about the tools that have been launched, and
at its end about its last status and the errors that have been logged, follows from what its threads
do. So it does not depend on how the threads are slowed down by each other.
-/

namespace CompiledViews

/-- The tools that make dumps beside the main path, once some tools of it have succeeded. -/
def forkedTools (settings : Settings) (won : List Tool) : List Tool :=
  (if .kotlinc ∈ won ∧ settings.computes .byteCode = true then [Tool.javap] else []) ++
    if .dex ∈ won ∧ settings.computes .dex = true then [Tool.dexdump] else []

/-- Every tool that a task launches comes to a result, if the run is not cancelled. -/
theorem Task.Does.results {task : Task} {deeds : List Deed} (does : task.Does deeds) :
    (results deeds).map Prod.fst = launchedTools deeds := by
  induction task generalizing deeds with
  | done => rcases does with rfl; rfl
  | abortAll next => exact does.elim
  | pause next ih => exact ih does
  | askCancelled next ih => exact ih _ does
  | look next ih =>
      rcases does with ⟨tree, does⟩
      exact ih tree does
  | change action next ih =>
      rcases does with ⟨error, rest, rfl, does⟩
      have told := ih error does
      exact told
  | call tool command next ih =>
      rcases does with ⟨outcome, rest, allowed, rfl, does⟩
      have isResult : ∃ result, stageResult? outcome = some result := by
        cases outcome with
        | ok result => exact ⟨_, rfl⟩
        | error error => cases error <;> simp_all [stageResult?]
      rcases isResult with ⟨result, isResult⟩
      have told := ih outcome does
      simp_all [CompiledViews.results, launchedTools, List.filterMap_cons, Deed.result?, Deed.tool?]
  | spawn child next _ ih =>
      rcases does with ⟨rest, rfl, does⟩
      have told := ih does
      exact told
  | _ =>
      rename_i ih
      rcases does with ⟨rest, rfl, does⟩
      have told := ih does
      exact told

section commands

namespace Task

variable {allowed : Tool → Command → Prop} {task next : Task}

/-- A task that runs tools by allowed commands only, and starts such tasks. -/
def Asks (allowed : Tool → Command → Prop) : Task → Prop
  | done => True
  | update _ next | advance _ _ next | skipToEnd _ next | log _ _ next | deliver _ _ next
  | abortAll next | awaitAll next | pause next => next.Asks allowed
  | spawn child next => child.Asks allowed ∧ next.Asks allowed
  | askCancelled next => ∀ answer, (next answer).Asks allowed
  | call tool command next => allowed tool command ∧ ∀ outcome, (next outcome).Asks allowed
  | change _ next => ∀ error, (next error).Asks allowed
  | look next => ∀ tree, (next tree).Asks allowed

theorem inherited_asks : Inherited (fun _ => True) fun _ => Asks allowed where
  mono asks _ := asks
  after {_ task} world _ asks := by
    cases task with
    | done => trivial
    | spawn child next => exact asks.2
    | askCancelled next => exact asks _
    | call tool command next =>
        rw [after_call]
        split
        · exact asks.2 _
        · exact asks
    | change action next => exact asks _
    | look next => exact asks _
    | _ => exact asks
  child asks := asks.1
  error asks error := asks.2 (.error error)
  result asks result := asks.2 (.ok result)

/-- A step asks for no tool but by an allowed command. -/
theorem Asks.asked (asks : task.Asks allowed) (world : World) {launch : Launch}
    (isAsked : launch ∈ (task.deeds world).filterMap Deed.asked?) :
    allowed launch.tool launch.command := by
  cases task with
  | call tool command next =>
      rw [deeds] at isAsked
      split at isAsked
      · rcases List.mem_singleton.1 isAsked with rfl
        exact asks.1
      · rcases List.mem_singleton.1 isAsked with rfl
        exact asks.1
  | _ => simp [deeds, Deed.asked?] at isAsked

theorem asks_dump {view : View} {command : Command} (isAllowed : allowed view.tool command)
    (success failure : Text) :
    (dump view.tool command view view.format success failure).Asks allowed := by
  refine ⟨isAllowed, fun outcome => ?_⟩
  apply holds_of_outcome outcome
  · trivial
  · exact fun output _ => trivial
  · exact fun result => trivial

theorem asks_finishRun (verdict : Verdict) (goesOn : next.Asks allowed) :
    (finishRun verdict next).Asks allowed := by
  have final : (finale verdict next).Asks allowed := fun cancelled =>
    holds_conclude (verdict.final cancelled) (fun _ _ logged => logged) fun _ => goesOn
  rw [finishRun_eq]
  intro cancelled
  cases cancelled <;> exact final

theorem asks_fillEmpty (views : List View) : (fillEmpty views).Asks allowed := by
  induction views with
  | nil => trivial
  | cons view views ih => exact ih

end Task

namespace Pipeline

variable (pipeline : Pipeline)

theorem closed_asks {verdict : Verdict → Task}
    (verdicts : ∀ final, (verdict final).Asks pipeline.IsCommand) :
    pipeline.ClosedWithViews verdict (Task.Asks pipeline.IsCommand) where
  verdicts _ := verdicts _
  log goesOn := goesOn
  advance goesOn := goesOn
  change goesOn := goesOn
  call _ isCommand goesOn := ⟨isCommand, goesOn⟩
  look goesOn := goesOn
  dump _ _ _ _ _ _ isCommand goesOn := ⟨Task.asks_dump isCommand _ _, goesOn⟩
  shown view command message failure next _ isCommand _ goesOn := by
    refine ⟨isCommand, fun outcome => ?_⟩
    apply Task.holds_of_outcome outcome
    · exact verdicts _
    · exact fun output _ => goesOn
    · exact fun result => verdicts (.ok failure)

theorem asks_disassemble (source : Text) :
    (pipeline.disassemble source).Asks pipeline.IsCommand :=
  (pipeline.closed_asks fun final =>
    Task.asks_finishRun final (Task.asks_fillEmpty _)).disassembleThen source

end Pipeline

namespace World

variable {allowed : Tool → Command → Prop} {world after : World}
  {exits new : List (Tool × ToolResult)}

/-- A world in which tools have been asked for by allowed commands only, and will be. -/
structure Commands (allowed : Tool → Command → Prop) (exits : List (Tool × ToolResult))
    (world : World) : Prop where
  tasks : ∀ id, (world.phase id).KeepsTo (fun _ => Task.Asks allowed) exits
  asked : ∀ launch ∈ world.launches, allowed launch.tool launch.command

theorem Commands.move (commands : world.Commands allowed exits) (move : world.Move new after) :
    after.Commands allowed (exits ++ new) where
  tasks := Task.inherited_asks.move trivial commands.tasks move
  asked := by
    intro launch isAsked
    cases move with
    | @act id task ready =>
        rw [task.asked_deeds, List.mem_append] at isAsked
        rcases isAsked with earlier | now
        · exact commands.asked launch earlier
        · have asks := commands.tasks id
          rw [ready] at asks
          exact Task.Asks.asked asks world now
    | _ => exact commands.asked launch isAsked

theorem commands_run {task : Task} (asks : task.Asks allowed) (steps : Nat) (files : FileTree)
    (choices : List Choice) : ((World.new task steps files).run choices).Commands allowed
      ((World.new task steps files).exits choices) := by
  refine holds_of_moves (fun world exits => world.Commands allowed exits) ⟨fun id => ?_, ?_⟩
    (fun move commands => commands.move move) choices
  · cases id with
    | zero => exact asks
    | succ id => trivial
  · intro launch isAsked
    cases isAsked

end World

end commands

namespace Pipeline

/-- The world in which a run that shows the views begins. -/
abbrev showing (pipeline : Pipeline) (source : Text) (files : FileTree) : World :=
  .new (pipeline.disassemble source) disassemblySteps files

variable {pipeline : Pipeline}

theorem tool_mem_forkedTools {settings : Settings} {won : List Tool} {tool : Tool} {view : View}
    (hasWon : tool ∈ won) (after : view ∈ viewsAfter settings tool) :
    view.tool ∈ forkedTools settings won := by
  cases tool <;> simp_all [viewsAfter, forkedTools, View.tool]

/-- Each of these tools makes the dump of a view that comes after a tool of the main path. -/
theorem map_flatMap_viewsAfter {settings : Settings} {won : List Tool}
    (inOrder : won <+: mainTools settings) :
    (won.flatMap (viewsAfter settings)).map View.tool = forkedTools settings won := by
  have isInit := (List.mem_inits _ _).2 inOrder
  unfold mainTools at isInit
  by_cases bytecode : settings.computes .byteCode = true <;>
    by_cases dex : settings.computes .dex = true <;>
    split at isInit <;>
    simp only [List.cons_append, List.nil_append, List.append_nil, List.inits, List.map_cons,
      List.map_nil, List.mem_cons, List.not_mem_nil, or_false] at isInit <;>
    rcases isInit with rfl | rfl | rfl | rfl | rfl | rfl <;>
    simp [viewsAfter, forkedTools, View.tool, *]

/-- The deeds of the main thread after its steps. -/
def ending (verdict : Verdict) (views : List View) : List Deed :=
  .wait :: (verdict.closing ++ Deed.wait :: views.map fun view => .offer view .empty)

theorem ending_silent (verdict : Verdict) (views : List View) :
    launchedTools (ending verdict views) = [] ∧ results (ending verdict views) = [] ∧
      changes (ending verdict views) = [] ∧ starts (ending verdict views) = [] := by
  have closing : launchedTools verdict.closing = [] ∧ results verdict.closing = [] ∧
      changes verdict.closing = [] ∧ starts verdict.closing = [] := by
    cases verdict with
    | ok status => exact ⟨rfl, rfl, rfl, rfl⟩
    | error error => cases error <;> exact ⟨rfl, rfl, rfl, rfl⟩
  have fills {α : Type} (told : Deed → Option α)
      (silent : ∀ view, told (.offer view .empty) = none) :
      (views.map fun view => Deed.offer view .empty).filterMap told = [] := by
    simp [silent]
  rcases closing with ⟨noTool, noResult, noChange, noStart⟩
  simp only [launchedTools, results, changes, starts] at noTool noResult noChange noStart ⊢
  simp only [ending, List.filterMap_append, List.filterMap_cons, noTool, noResult, noChange,
    noStart]
  exact ⟨fills _ fun _ => rfl, fills _ fun _ => rfl, fills _ fun _ => rfl, fills _ fun _ => rfl⟩

theorem conclude_mem_ending (verdict : Verdict) (views : List View) :
    .conclude verdict.status ∈ ending verdict views := by
  cases verdict with
  | ok status => exact .tail _ (.head _)
  | error error =>
      cases error with
      | cancelled => exact .tail _ (.head _)
      | scratch path error => exact .tail _ (.tail _ (.head _))

/-- All that is logged after the steps is the error of the scratch directory, if there is one. -/
theorem errors_ending (known : List (Option OsError)) (told : List (Tool × ToolResult))
    (views : List View) : errors (notesOf (ending (pipeline.verdictOf known told) views)) =
      (pipeline.scratchError? known).toList.map RunError.message := by
  have fills : errors (notesOf (views.map fun view => .offer view .empty)) = [] := by
    simp [notesOf, errors, List.filterMap_map, Function.comp_def, Deed.note?]
  have whole (verdict : Verdict) : errors (notesOf (ending verdict views)) =
      errors (notesOf verdict.closing) := by
    change errors (notesOf (verdict.closing ++ _)) = _
    rw [notesOf_append, errors_append]
    exact (congrArg (errors (notesOf verdict.closing) ++ ·) fills).trans (List.append_nil _)
  rw [whole]
  cases isError : pipeline.scratchError? known with
  | none =>
      have isStatus : ∃ status, pipeline.verdictOf known told = .ok status := by
        simp only [verdictOf, isError]
        split <;> exact ⟨_, rfl⟩
      rcases isStatus with ⟨status, isVerdict⟩
      rw [isVerdict]
      rfl
  | some error =>
      have isScratch : ∃ path cause, error = .scratch path cause := by
        unfold scratchError? at isError
        split at isError
        · exact ⟨_, _, (Option.some.inj isError).symm⟩
        · exact ⟨_, _, (Option.some.inj isError).symm⟩
        · cases isError
      rcases isScratch with ⟨path, cause, rfl⟩
      simp only [verdictOf, isError]
      rfl

/-- What the main thread of a run that shows the views does from its beginning to its end. -/
structure MainCourse (pipeline : Pipeline) (deeds : List Deed) : Prop where
  inOrder : succeeded (results deeds) <+: launchedTools deeds ∧
    launchedTools deeds <+: mainTools pipeline.settings
  gated {part : List Deed} (isPart : part <+: deeds) :
    (launchedTools part).dropLast <+: succeeded (results part)
  forks : ∃ forks : List (View × Command),
    starts deeds = forks.map (fun fork => fork.1.dumpTask fork.2) ∧
      forks.map Prod.fst = (succeeded (results deeds)).flatMap (viewsAfter pipeline.settings)
  forksGated {part : List Deed} (isPart : part <+: deeds) {child : Task}
    (isStarted : child ∈ starts part) : ∃ tool ∈ succeeded (results part),
      ∃ view ∈ viewsAfter pipeline.settings tool, ∃ command, child = view.dumpTask command
  errors_eq : errors (notesOf deeds) = (results deeds).filterMap pipeline.complaint? ++
    (pipeline.scratchError? (changes deeds)).toList.map RunError.message
  concludes : .conclude (pipeline.verdictOf (changes deeds) (results deeds)).status ∈ deeds
  ready : (pipeline.verdictOf (changes deeds) (results deeds)).status = "Ready" ↔
    changes deeds = [none, none] ∧ succeeded (results deeds) = mainTools pipeline.settings

theorem unfailed_steps (settings : Settings) : Step.unfailed (steps settings) = [none, none] := by
  unfold steps
  split <;> rfl

theorem status_eq_ready {verdict : Verdict} : verdict.status = "Ready" ↔ verdict = .ok "Ready" := by
  cases verdict with
  | ok status =>
      rw [Except.ok.injEq]
      exact Iff.rfl
  | error error =>
      have isText : Verdict.status (.error error) = "Error: " ++ error.message := rfl
      rw [isText]
      simp

/-- A part of what the main thread does tells of the same tools and threads as a part of what it
does in its steps. -/
theorem exists_part {main whole part : List Deed} {verdict : Verdict} {views : List View}
    {opening : Text} (isWhole : whole = .status opening :: (main ++ ending verdict views))
    (isPart : part <+: whole) : ∃ mainPart, mainPart <+: main ∧
      launchedTools part = launchedTools mainPart ∧ results part = results mainPart ∧
      starts part = starts mainPart := by
  rcases ending_silent verdict views with ⟨noTool, noResult, _, noStart⟩
  rw [isWhole, List.prefix_cons_iff] at isPart
  rcases isPart with rfl | ⟨rest, rfl, isPart⟩
  · exact ⟨[], List.nil_prefix, rfl, rfl, rfl⟩
  · rcases List.prefix_or_prefix_of_prefix isPart (List.prefix_append main _) with
      short | ⟨last, rfl⟩
    · exact ⟨rest, short, rfl, rfl, rfl⟩
    · rw [List.prefix_append_right_inj] at isPart
      have silent {α : Type} {told : Deed → Option α}
          (none : (ending verdict views).filterMap told = []) : last.filterMap told = [] :=
        List.prefix_nil.1 (none ▸ isPart.filterMap told)
      refine ⟨main, List.prefix_rfl, ?_, ?_, ?_⟩
      · change launchedTools (main ++ last) = _
        rw [launchedTools_append, show launchedTools last = [] from silent noTool, List.append_nil]
      · change results (main ++ last) = _
        rw [results_append, show results last = [] from silent noResult, List.append_nil]
      · change starts (main ++ last) = _
        rw [starts_append, show starts last = [] from silent noStart, List.append_nil]

theorem mainCourse_of_does {source : Text} {deeds : List Deed}
    (does : (pipeline.disassemble source).Does deeds) : pipeline.MainCourse deeds := by
  rcases does_disassemble does with ⟨main, verdict, passes, isDeeds⟩
  have isWhole : deeds = .status "Compiling and disassembling…" ::
      (main ++ ending verdict pipeline.settings.computedViews) := isDeeds
  rcases ending_silent verdict pipeline.settings.computedViews with
    ⟨noTool, noResult, noChange, noStart⟩
  have sameTools : launchedTools deeds = launchedTools main := by
    rw [isWhole]
    change launchedTools (main ++ _) = _
    rw [launchedTools_append, noTool, List.append_nil]
  have sameResults : results deeds = results main := by
    rw [isWhole]
    change results (main ++ _) = _
    rw [results_append, noResult, List.append_nil]
  have sameChanges : changes deeds = changes main := by
    rw [isWhole]
    change changes (main ++ _) = _
    rw [changes_append, noChange, List.append_nil]
  have sameStarts : starts deeds = starts main := by
    rw [isWhole]
    change starts (main ++ _) = _
    rw [starts_append, noStart, List.append_nil]
  have isVerdict := passes.verdict_eq
  refine ⟨?_, fun isPart => ?_, ?_, fun isPart child isStarted => ?_, ?_, ?_, ?_⟩
  · rw [sameTools, sameResults, ← filterMap_tool?_steps]
    exact passes.tools_prefix
  · rcases exists_part isWhole isPart with ⟨mainPart, isMainPart, tools, told, _⟩
    rw [tools, told]
    exact passes.gated isMainPart
  · rw [sameStarts, sameResults]
    exact passes.forks
  · rcases exists_part isWhole isPart with ⟨mainPart, isMainPart, _, told, started⟩
    rw [started] at isStarted
    rw [told]
    exact passes.forks_gated isMainPart isStarted
  · have logged : errors (notesOf deeds) = errors (notesOf main) ++
        errors (notesOf (ending verdict pipeline.settings.computedViews)) := by
      rw [isWhole]
      change errors (notesOf (main ++ _)) = _
      rw [notesOf_append, errors_append]
    rw [logged, passes.errors_eq, sameResults, sameChanges, isVerdict, errors_ending]
  · rw [sameChanges, sameResults, ← isVerdict, isWhole]
    exact .tail _ (List.mem_append_right _ (conclude_mem_ending verdict _))
  · rw [sameChanges, sameResults, ← isVerdict, status_eq_ready, passes.ready_iff, unfailed_steps,
      ← filterMap_tool?_steps]
    rfl

/-- What a thread that makes a dump tells: of its own tool, and of what that has logged if it has
failed. -/
theorem dumpTask_tells (pipeline : Pipeline) {view : View} {command : Command} {deeds : List Deed}
    (does : (view.dumpTask command).Does deeds) : launchedTools deeds = [view.tool] ∧
      errors (notesOf deeds) = (results deeds).filterMap pipeline.complaint? := by
  rcases does_dumpTask does with ⟨outcome, result, isResult, rfl⟩
  have complains : pipeline.complaint view.tool result.output = result.output := by
    cases view <;> rfl
  have told (rest : List Deed) : results (.launch view.tool command ::
      .hear view.tool command outcome :: rest) = (view.tool, result) :: results rest := by
    simp [results, List.filterMap_cons, Deed.result?, isResult]
  cases success : result.success with
  | true =>
      refine ⟨rfl, ?_⟩
      rw [told]
      change [] = [(view.tool, result)].filterMap pipeline.complaint?
      simp [complaint?, success]
  | false =>
      refine ⟨rfl, ?_⟩
      rw [told]
      change [result.output] = [(view.tool, result)].filterMap pipeline.complaint?
      simp [complaint?, success, complains]

theorem dumpTasks_tell (pipeline : Pipeline) {forks : List (View × Command)}
    {courses : List (List Deed)}
    (does : List.Forall₂ Task.Does (forks.map fun fork => fork.1.dumpTask fork.2) courses) :
    launchedTools courses.flatten = forks.map (fun fork => fork.1.tool) ∧
      errors (notesOf courses.flatten) =
        (results courses.flatten).filterMap pipeline.complaint? ∧
      (results courses.flatten).map Prod.fst = launchedTools courses.flatten := by
  induction forks generalizing courses with
  | nil =>
      cases does
      exact ⟨rfl, rfl, rfl⟩
  | cons fork forks ih =>
      rcases List.forall₂_cons_left_iff.1 does with ⟨course, others, first, rest, rfl⟩
      rcases pipeline.dumpTask_tells first with ⟨isTool, isLogged⟩
      rcases ih rest with ⟨areTools, areLogged, areAnswered⟩
      simp [isTool, isLogged, first.results, areTools, areLogged, areAnswered]

end Pipeline

theorem perm_errors {deeds others : List Deed} (perm : deeds.Perm others) :
    (errors (notesOf deeds)).Perm (errors (notesOf others)) :=
  (perm.filterMap _).filterMap _

namespace World

/-- The tools that a run has launched are those that its threads have launched. -/
theorem launched_run (task : Task) (steps : Nat) (files : FileTree) (choices : List Choice) :
    ((new task steps files).run choices).launched.map Launch.tool =
      launchedTools (((new task steps files).record choices).map Prod.snd) := by
  have each (deed : Deed) : ((deed.asked?.filter fun launch => !launch.refused).map Launch.tool) =
      deed.tool? := by
    cases deed <;> rfl
  rw [launched, launches_run, List.filter_filterMap, List.map_filterMap, launchedTools,
    List.filterMap_map]
  exact List.filterMap_congr fun entry _ => each entry.2

/-- What a run from a world on that shows the views, and is not cancelled, tells of its outcome.
What has been launched is what its threads have launched, each tool by its own command. The tools
that its main path has launched are the first ones of it, in their order, and all but the last of
them have succeeded; any other tool that has been launched makes the dump of a view beside it, after
a tool of it that has succeeded.

When the main thread is at its end, all those tools have been launched beside it, and every tool
that has been launched has come to a result. The last status is that of the verdict of the main
path; it tells of success if and only if its changes of the files and its tools have all succeeded.
One error is logged for every tool that has failed, and one if the scratch directory could not be
written. -/
structure TellsOutcome (pipeline : Pipeline) (start : World) (choices : List Choice) : Prop where
  asked : (start.run choices).launches =
    (start.record choices).filterMap fun entry => entry.2.asked?
  commands : ∀ launch ∈ (start.run choices).launches,
    pipeline.IsCommand launch.tool launch.command
  inOrder : launchedTools (own 0 (start.record choices)) <+:
    Pipeline.mainTools pipeline.settings
  gated : (launchedTools (own 0 (start.record choices))).dropLast <+:
    succeeded (results (own 0 (start.record choices)))
  beside : ∀ id tool command, id ≠ 0 → (id, .launch tool command) ∈ start.record choices →
    tool ∈ forkedTools pipeline.settings (succeeded (results (own 0 (start.record choices))))
  launched : (start.run choices).hasEnded 0 = true →
    ((start.run choices).launched.map Launch.tool).Perm
      (launchedTools (own 0 (start.record choices)) ++
        forkedTools pipeline.settings (succeeded (results (own 0 (start.record choices)))))
  answered : (start.run choices).hasEnded 0 = true →
    ((results ((start.record choices).map Prod.snd)).map Prod.fst).Perm
      ((start.run choices).launched.map Launch.tool)
  concluded : (start.run choices).hasEnded 0 = true →
    terminal? (start.run choices).reports =
      some (pipeline.verdictOf (changes (own 0 (start.record choices)))
        (results (own 0 (start.record choices)))).status
  ready : (start.run choices).hasEnded 0 = true →
    (terminal? (start.run choices).reports = some ("Ready" : Text) ↔
      changes (own 0 (start.record choices)) = [none, none] ∧
        succeeded (results (own 0 (start.record choices))) =
          Pipeline.mainTools pipeline.settings)
  errors : (start.run choices).hasEnded 0 = true →
    (errors (notes (start.run choices).reports)).Perm
      ((results ((start.record choices).map Prod.snd)).filterMap pipeline.complaint? ++
        (pipeline.scratchError? (changes (own 0 (start.record choices)))).toList.map
          RunError.message)
  ends : ∃ rest, start.Within .calm (choices ++ rest) ∧
    (start.run (choices ++ rest)).hasEnded 0 = true

section calm

variable {pipeline : Pipeline} {source : Text} {files : FileTree} {choices : List Choice}
  (within : (pipeline.showing source files).Within .calm choices)

include within

theorem exists_mainCourse : ∃ deeds, pipeline.MainCourse deeds ∧
    own 0 ((pipeline.showing source files).record choices) <+: deeds := by
  rcases exists_does_main (pipeline.leads_disassemble source)
    (pipeline.settles_disassemble source .byteCode) disassemblySteps files within with ⟨rest, does⟩
  exact ⟨_, Pipeline.mainCourse_of_does does, List.prefix_append _ _⟩

theorem mainCourse_of_ended
    (ended : ((pipeline.showing source files).run choices).hasEnded 0 = true) :
    pipeline.MainCourse (own 0 ((pipeline.showing source files).record choices)) :=
  Pipeline.mainCourse_of_does (does_main (pipeline.leads_disassemble source)
    (pipeline.settles_disassemble source .byteCode) disassemblySteps files within ended)

/-- A thread beside the main one launches nothing but the tool of a view that is computed. -/
theorem mem_forkedTools_of_launch {id : Nat} {tool : Tool} {command : Command} (isFork : id ≠ 0)
    (isLaunched : (id, .launch tool command) ∈ (pipeline.showing source files).record choices) :
    tool ∈ forkedTools pipeline.settings
      (succeeded (results (own 0 ((pipeline.showing source files).record choices)))) := by
  have leads := pipeline.leads_disassemble source
  have settles := pipeline.settles_disassemble source .byteCode
  have traced := traced_run leads settles disassemblySteps files within
  rcases exists_mainCourse within with ⟨deeds, course, isPart⟩
  obtain ⟨place, rfl⟩ : ∃ place, id = place + 1 := ⟨id - 1, by omega⟩
  have exists_ := traced.inside _ isLaunched
  rw [traced.length, Nat.add_lt_add_iff_right] at exists_
  have isChild := List.getElem?_eq_getElem exists_
  rcases course.forksGated isPart (List.mem_of_getElem? isChild) with
    ⟨origin, hasWon, view, after, forkCommand, isDump⟩
  rcases exists_does_fork leads settles disassemblySteps files within isChild with ⟨rest, does⟩
  rw [isDump] at does
  have isTool : tool ∈ launchedTools (own (place + 1)
      ((pipeline.showing source files).record choices) ++ rest) := by
    rw [launchedTools_append]
    exact List.mem_append_left _ (List.mem_filterMap.2 ⟨_, mem_own.2 isLaunched, rfl⟩)
  rw [(pipeline.dumpTask_tells does).1, List.mem_singleton] at isTool
  rw [isTool]
  exact Pipeline.tool_mem_forkedTools hasWon after

/-- When the main thread is at its end, what the others tell is what dumps of views tell, one for
each tool that makes them. -/
theorem exists_besides
    (ended : ((pipeline.showing source files).run choices).hasEnded 0 = true) :
    ∃ others : List Deed,
      (((pipeline.showing source files).record choices).map Prod.snd).Perm
        (own 0 ((pipeline.showing source files).record choices) ++ others) ∧
      launchedTools others = forkedTools pipeline.settings
        (succeeded (results (own 0 ((pipeline.showing source files).record choices)))) ∧
      errors (notesOf others) = (results others).filterMap pipeline.complaint? ∧
      (results others).map Prod.fst = launchedTools others := by
  have main := mainCourse_of_ended within ended
  rcases exists_courses (pipeline.leads_disassemble source)
    (pipeline.settles_disassemble source .byteCode) disassemblySteps files within ended with
    ⟨courses, perm, does⟩
  rcases main.forks with ⟨forks, areForks, views⟩
  rw [areForks] at does
  rcases pipeline.dumpTasks_tell does with ⟨tools, logged, answered⟩
  refine ⟨courses.flatten, perm, ?_, logged, answered⟩
  rw [tools, ← Pipeline.map_flatMap_viewsAfter (main.inOrder.1.trans main.inOrder.2), ← views,
    List.map_map]
  rfl

end calm

/-- A run that shows the views, and is not cancelled, tells its outcome, whatever its tools come to
and whatever is chosen to happen. -/
theorem tellsOutcome_of_disassemble (pipeline : Pipeline) (source : Text) (files : FileTree)
    {choices : List Choice} (within : (pipeline.showing source files).Within .calm choices) :
    TellsOutcome pipeline (pipeline.showing source files) choices := by
  have concluded (ended : ((pipeline.showing source files).run choices).hasEnded 0 = true) :=
    (hasConcluded_run (pipeline.leads_disassemble source) disassemblySteps files
      (mem_own.1 (mainCourse_of_ended within ended).concludes)).told.terminal
  rcases exists_mainCourse within with ⟨deeds, course, isPart⟩
  have commands := commands_run (pipeline.asks_disassemble source) disassemblySteps files choices
  refine ⟨launches_run _ _ _ choices, commands.asked, ?_, course.gated isPart,
    fun id tool command isFork isLaunched =>
    mem_forkedTools_of_launch within isFork isLaunched, fun ended => ?_, fun ended => ?_,
    fun ended => concluded ended, fun ended => ?_, fun ended => ?_, ?_⟩
  · exact (isPart.filterMap Deed.tool?).trans course.inOrder.2
  · rcases exists_besides within ended with ⟨others, perm, tools, _⟩
    rw [launched_run, ← tools, ← launchedTools_append]
    exact perm.filterMap Deed.tool?
  · rcases exists_besides within ended with ⟨others, perm, _, _, answered⟩
    rw [launched_run]
    have main := (does_main (pipeline.leads_disassemble source)
      (pipeline.settles_disassemble source .byteCode) disassemblySteps files within ended).results
    have told := (perm.filterMap Deed.result?).map Prod.fst
    have tools := perm.filterMap Deed.tool?
    change ((results _).map _).Perm ((results _).map _) at told
    change (launchedTools _).Perm (launchedTools _) at tools
    rw [results_append, List.map_append, main, answered, ← launchedTools_append] at told
    exact told.trans tools.symm
  · rw [concluded ended, Option.some.injEq]
    exact (mainCourse_of_ended within ended).ready
  · rcases exists_besides within ended with ⟨others, perm, _, logged, _⟩
    have main := mainCourse_of_ended within ended
    have areNotes : notes ((pipeline.showing source files).run choices).reports =
        notesOf (((pipeline.showing source files).record choices).map Prod.snd) := by
      rw [notes_run, notesOf, List.filterMap_map]
      rfl
    have noted := perm_errors perm
    have failed := (perm.filterMap Deed.result?).filterMap pipeline.complaint?
    change ((results _).filterMap _).Perm ((results _).filterMap _) at failed
    rw [results_append, List.filterMap_append] at failed
    rw [notesOf_append, errors_append, main.errors_eq, logged, List.append_assoc] at noted
    rw [areNotes]
    refine noted.trans (.trans ?_ (failed.symm.append_right _))
    rw [List.append_assoc]
    exact List.perm_append_comm.append_left _
  · have orderly := orderly_run (pipeline.leads_disassemble source) disassemblySteps files choices
    rcases orderly.exists_ended_within Surroundings.exists_calm with ⟨rest, restWithin, ended⟩
    exact ⟨rest, within_append.2 ⟨within, restWithin⟩, by rwa [run_append]⟩

/-- A run in which the tool that makes the dump of the class files fails, and then the device cannot
be reached. -/
def withoutDevice : List Choice :=
  List.flatten [
    .replicate 3 (.turn 0), [.land 0 ⟨.ok ⟨0, []⟩, id⟩], .replicate 5 (.turn 0),
    [.turn 1, .land 0 ⟨.ok ⟨0, []⟩, id⟩], .replicate 3 (.turn 0),
    [.turn 2, .land 2 ⟨.ok ⟨0, []⟩, id⟩], .replicate 4 (.turn 2),
    [.land 1 ⟨.ok ⟨1, "class not found"⟩, id⟩], .replicate 3 (.turn 1),
    [.land 0 ⟨.error (.launch "adb" "no such file"), id⟩], .replicate 15 (.turn 0)]

theorem tellsOutcome_withoutDevice :
    TellsOutcome .plain (Pipeline.plain.showing [] .vacant) withoutDevice ∧
    ((Pipeline.plain.showing [] .vacant).run withoutDevice).hasEnded 0 = true ∧
    terminal? ((Pipeline.plain.showing [] .vacant).run withoutDevice).reports =
      some ("Error pushing code to device" : Text) := by
  refine ⟨tellsOutcome_of_disassemble .plain [] .vacant (within_calm _ (by decide)), ?_, ?_⟩
  · decide +kernel
  · decide +kernel

end World

end CompiledViews
