import CompiledViews.Proofs.Run.Debts
import CompiledViews.Proofs.Run.Ending
import CompiledViews.Proofs.Run.Pipeline

/-!
# The contents of a run that shows the views

Each view that is computed gets contents exactly once, and no other view gets any. They are what
its format reads from the output of its own dump tool, or empty; and unless the run is cancelled
they are empty only where that tool has not exited with success.
-/

namespace CompiledViews

theorem View.tool_injective : Function.Injective View.tool := by
  intro left right same
  cases left <;> cases right <;> simp_all [View.tool]

theorem View.ne_tool {tool : Tool} (different : tool ∉ View.all.map View.tool) (view : View) :
    tool ≠ view.tool := by
  have member : view ∈ View.all := by cases view <;> decide
  exact fun same => different (List.mem_map.2 ⟨view, member, same.symm⟩)

namespace Task

section faithful

variable {served : View → Prop} {exits : List (Tool × ToolResult)} {next : Task}

theorem faithful_call {tool : Tool} {command : Command} {next : Outcome → Task}
    (goesOn : ∀ outcome known, (∀ result, outcome = .ok result → (tool, result) ∈ known) →
      (next outcome).Faithful served known) : (call tool command next).Faithful served exits := by
  constructor
  · intro result
    apply goesOn
    intro other equal
    rcases Except.ok.inj equal with rfl
    exact List.mem_append_right _ (List.mem_singleton.2 rfl)
  · intro error
    apply goesOn
    simp

theorem faithful_dump {view : View} (isServed : served view) (command : Command)
    (success failure : Text) :
    (dump view.tool command view view.format success failure).Faithful served exits := by
  apply faithful_call
  intro outcome known isKnown
  apply holds_of_outcome outcome
  · trivial
  · exact fun output equal => ⟨⟨isServed, .inr ⟨output, isKnown _ equal, rfl⟩⟩, trivial⟩
  · exact fun result => trivial

theorem faithful_finishRun (verdict : Verdict) (goesOn : next.Faithful served exits) :
    (finishRun verdict next).Faithful served exits := by
  have final : (finale verdict next).Faithful served exits := fun cancelled =>
    holds_conclude (verdict.final cancelled) (fun _ _ logged => logged) fun _ => goesOn
  rw [finishRun_eq]
  intro cancelled
  cases cancelled <;> exact final

theorem faithful_fillEmpty {views : List View} (areServed : ∀ view ∈ views, served view) :
    (fillEmpty views).Faithful served exits := by
  induction views with
  | nil => trivial
  | cons view views ih =>
      rcases List.forall_mem_cons.1 areServed with ⟨first, others⟩
      exact ⟨⟨first, .inl rfl⟩, ih others⟩

end faithful

section settles

variable {view : View} {next : Task}

theorem settles_dump (shown : View) (command : Command) (success failure : Text) :
    (dump shown.tool command shown shown.format success failure).Settles view := by
  constructor
  · intro outcome
    apply holds_of_outcome outcome
    · trivial
    · exact fun output _ => trivial
    · exact fun result => trivial
  · intro same output
    have isView : shown = view := View.tool_injective same
    have isShown := shown.format.content_ne_empty output
    simpa [stageResult?, ToolResult.success, Owes, isView] using isView ▸ isShown

theorem settles_finishRun (verdict : Verdict) (goesOn : next.Settles view) :
    (finishRun verdict next).Settles view := by
  rw [finishRun_eq]
  exact holds_conclude (verdict.final false) (fun _ _ logged => logged) fun _ => goesOn

theorem settles_fillEmpty (views : List View) : (fillEmpty views).Settles view := by
  induction views with
  | nil => trivial
  | cons view views ih => exact ih

end settles

section provides

variable {view : View} {next : Task}

theorem provides_finishRun (verdict : Verdict) (goesOn : next.Provides view) :
    (finishRun verdict next).Provides view := by
  have final : (finale verdict next).Provides view := fun cancelled =>
    holds_conclude (verdict.final cancelled) (fun _ _ logged => logged) fun _ => goesOn
  rw [finishRun_eq]
  intro cancelled
  cases cancelled <;> exact final

theorem provides_fillEmpty {views : List View} (member : view ∈ views) :
    (fillEmpty views).Provides view := by
  induction views with
  | nil => simp at member
  | cons first views ih =>
      rcases List.mem_cons.1 member with rfl | later
      · exact .inl rfl
      · exact .inr (ih later)

end provides

end Task

namespace Pipeline

section closed

variable {pipeline : Pipeline} {verdict : Verdict → Task}

theorem closed_faithful {served : View → Prop}
    (areServed : ∀ view, pipeline.settings.computes view = true → served view)
    (verdicts : ∀ final exits, (verdict final).Faithful served exits) :
    pipeline.ClosedWithViews verdict fun task => ∀ exits, task.Faithful served exits where
  verdicts _ := verdicts _
  log goesOn := goesOn
  advance goesOn := goesOn
  change goesOn exits error := goesOn error exits
  call _ _ goesOn exits := Task.faithful_call fun outcome known _ => goesOn outcome known
  look goesOn exits tree := goesOn tree exits
  dump view _ _ _ _ computed _ goesOn exits :=
    ⟨Task.faithful_dump (areServed view computed) _ _ _, goesOn exits⟩
  shown view command message failure next computed _ fits goesOn exits := by
    apply Task.faithful_call
    intro outcome known isKnown
    apply Task.holds_of_outcome outcome
    · exact verdicts _ known
    · intro output equal
      exact ⟨⟨areServed view computed, .inr ⟨output, isKnown _ equal, rfl⟩⟩, goesOn known⟩
    · exact fun result => verdicts (.ok failure) known

theorem closed_settles (view : View) (verdicts : ∀ final, (verdict final).Settles view) :
    pipeline.ClosedWithViews verdict (Task.Settles view) where
  verdicts _ := verdicts _
  log goesOn := goesOn
  advance goesOn := goesOn
  change goesOn := goesOn
  call noDump _ goesOn := ⟨goesOn, fun same => absurd same (View.ne_tool noDump view)⟩
  look goesOn := goesOn
  dump shown _ _ _ _ _ _ goesOn := ⟨Task.settles_dump shown _ _ _, goesOn⟩
  shown shown command message failure next computed _ fits goesOn := by
    constructor
    · intro outcome
      apply Task.holds_of_outcome outcome
      · exact verdicts _
      · exact fun output _ => goesOn
      · exact fun result => verdicts (.ok failure)
    · intro same output
      have isView : shown = view := View.tool_injective same
      have isShown := shown.format.content_ne_empty output
      simpa [stageResult?, ToolResult.success, Task.Owes, isView] using isView ▸ isShown

theorem closed_provides (view : View) (verdicts : ∀ final, (verdict final).Provides view) :
    pipeline.ClosedWithViews verdict (Task.Provides view) where
  verdicts _ := verdicts _
  log goesOn := goesOn
  advance goesOn := goesOn
  change goesOn := goesOn
  call _ _ goesOn := goesOn
  look goesOn := goesOn
  dump _ _ _ _ _ _ _ goesOn := goesOn
  shown shown command message failure next computed _ fits goesOn := by
    intro outcome
    apply Task.holds_of_outcome outcome
    · exact verdicts _
    · exact fun output _ => .inr goesOn
    · exact fun result => verdicts (.ok failure)

end closed

variable (pipeline : Pipeline) (source : Text)

theorem mem_computedViews {settings : Settings} {view : View} :
    view ∈ settings.computedViews ↔ settings.computes view = true := by
  have member : view ∈ View.all := by cases view <;> decide
  simp [Settings.computedViews, member]

theorem faithful_disassemble : (pipeline.disassemble source).Faithful
    (fun view => pipeline.settings.computes view = true) [] := by
  have verdicts (final : Verdict) (exits : List (Tool × ToolResult)) :
      (Task.finishRun final (Task.fillEmpty pipeline.settings.computedViews)).Faithful
        (fun view => pipeline.settings.computes view = true) exits :=
    Task.faithful_finishRun final (Task.faithful_fillEmpty fun _ => mem_computedViews.1)
  exact (closed_faithful (fun _ computed => computed) verdicts).disassembleThen source []

theorem settles_disassemble (view : View) : (pipeline.disassemble source).Settles view :=
  (closed_settles view fun final =>
    Task.settles_finishRun final (Task.settles_fillEmpty _)).disassembleThen source

theorem provides_disassemble {view : View} (computed : pipeline.settings.computes view = true) :
    (pipeline.disassemble source).Provides view :=
  (closed_provides view fun final => Task.provides_finishRun final
    (Task.provides_fillEmpty (mem_computedViews.2 computed))).disassembleThen source

end Pipeline

/-- Each run of one tool has to be paid for, and nothing else. -/
def Price.runsOf (tool : Tool) : Price := ⟨fun _ => 0, fun other => if other = tool then 1 else 0⟩

theorem Price.paid_runsOf (tool : Tool) (exits : List (Tool × ToolResult)) :
    (runsOf tool).paid exits = exits.countP (·.1 = tool) := by
  induction exits with
  | nil => rfl
  | cons exit exits ih =>
      rw [List.countP_cons, ← ih]
      by_cases same : exit.1 = tool <;> simp [paid, runsOf, same, Nat.add_comm]

namespace World

variable {ending : Text → Prop} {served : View → Prop} {view : View} {task : Task} (steps : Nat)
  (files : FileTree) (choices : List Choice)

theorem accounted_run : ((new task steps files).run choices).Accounted :=
  holds_of_moves (fun world _ => world.Accounted) ⟨rfl, List.nodup_nil⟩
    (fun move accounted => accounted.move move) choices

theorem faithful_run (faithful : task.Faithful served []) :
    ((new task steps files).run choices).Faithful served
      ((new task steps files).exits choices) := by
  refine holds_of_moves (fun world exits => world.Faithful served exits) ⟨fun id => ?_, ?_⟩
    (fun move faithful => faithful.move move) choices
  · cases id with
    | zero => exact faithful
    | succ id => trivial
  · simp [new, contents]

theorem provided_run (leads : task.Leads ending) (provides : task.Provides view) :
    ((new task steps files).run choices).Provided view := by
  suffices ((new task steps files).run choices).Orderly ending ∧
      ((new task steps files).run choices).Provided view from this.2
  refine holds_of_moves (fun world _ => world.Orderly ending ∧ world.Provided view)
    ⟨orderly_new leads steps files, .inr provides⟩ ?_ choices
  intro world after _ _ move ⟨orderly, provided⟩
  exact ⟨orderly.move move, provided.move orderly move⟩

theorem solvent_run (leads : task.Leads ending) (settles : task.Settles view)
    (never : .cancel ∉ choices) :
    ((new task steps files).run choices).Solvent view ((new task steps files).exits choices) := by
  suffices ((new task steps files).run choices).Orderly ending ∧
      ((new task steps files).run choices).Accounted ∧
      (((new task steps files).run choices).cancelled = false →
        ((new task steps files).run choices).Solvent view
          ((new task steps files).exits choices)) from
    this.2.2 (cancelled_run _ never)
  refine holds_of_moves (fun world exits => world.Orderly ending ∧ world.Accounted ∧
    (world.cancelled = false → world.Solvent view exits))
    ⟨orderly_new leads steps files, ⟨rfl, .nil⟩, fun _ => ⟨fun id => ?_, fun id => ?_, ?_⟩⟩ ?_
    choices
  · cases id <;> rfl
  · cases id with
    | zero => exact settles
    | succ id => trivial
  · exact fun output dumped => absurd dumped List.not_mem_nil
  · intro world after earlier new move ⟨orderly, accounted, solvent⟩
    refine ⟨orderly.move move, accounted.move move, fun stays => ?_⟩
    have uncancelled := move.uncancelled stays
    exact (solvent uncancelled).move accounted orderly uncancelled stays move

/-- When the main thread is at its end, every view that is provided for has got contents. -/
theorem Provided.delivered_of_ended {world : World} (provided : world.Provided view)
    (ended : world.hasEnded 0 = true) : view ∈ world.delivered := by
  rcases provided with known | provides
  · exact known
  · rw [hasEnded_iff.1 ended] at provides
    exact provides.elim

/-- When the main thread is at its end, nothing is owed to any view. -/
theorem Orderly.not_owes_of_ended {world : World} (orderly : world.Orderly ending)
    (ended : world.hasEnded 0 = true) (id : Nat) : ¬(world.phase id).Owes view := by
  have isEnded := hasEnded_iff.1 ended
  intro owes
  cases orderly.stage with
  | leads main waited unfilled =>
      rw [isEnded] at main
      exact main
  | closes main alone unfilled =>
      rw [isEnded] at main
      exact main
  | fills main alone concluded =>
      by_cases isMain : id = 0
      · rw [isMain, isEnded] at owes
        exact owes
      · rw [alone id isMain] at owes
        exact owes

theorem Accounted.nodup_contents {world : World} (accounted : world.Accounted) :
    ((contents world.reports).map Prod.fst).Nodup := by
  rw [accounted.views]
  exact List.nodup_reverse.2 accounted.once

/-- Of a view that has got contents there is no other content. -/
theorem Accounted.content_unique {world : World} (accounted : world.Accounted)
    {first second : Content} (isFirst : (view, first) ∈ contents world.reports)
    (isSecond : (view, second) ∈ contents world.reports) : first = second :=
  congrArg Prod.snd (List.inj_on_of_nodup_map accounted.nodup_contents isFirst isSecond rfl)

/-- What a run from a world on says about the views that its settings compute, with the tools that
exit in it. Contents are told of computed views only, once for each; no tool exits twice, and
contents are empty or what the format of the view reads from the output of its dump tool, if that
has exited with success. When the main thread is at its end there are contents for all the computed
views, and if the run has not been cancelled they are empty only where that tool has not exited with
success; and there always are choices that lead there. -/
structure TellsContents (settings : Settings) (start : World) (choices : List Choice) : Prop where
  once : ((contents (start.run choices).reports).map Prod.fst).Nodup
  exitsOnce : ∀ tool, (start.exits choices).countP (·.1 = tool) ≤ 1
  justified : ∀ view content, .content view content ∈ (start.run choices).reports →
    Justified (fun view => settings.computes view = true) (start.exits choices) view content
  complete : (start.run choices).hasEnded 0 = true →
    ((contents (start.run choices).reports).map Prod.fst).Perm settings.computedViews
  shown : (start.run choices).hasEnded 0 = true → Choice.cancel ∉ choices →
    ∀ view content, .content view content ∈ (start.run choices).reports →
      (content ≠ .empty ↔ ∃ output, Dumped (start.exits choices) view output)
  ends : ∃ rest, ((start.run choices).run rest).hasEnded 0 = true

/-- A run that shows the views tells the contents of the computed views, whatever is chosen to
happen. -/
theorem tellsContents_of_disassemble (pipeline : Pipeline) (source : Text) (files : FileTree)
    (choices : List Choice) :
    TellsContents pipeline.settings (new (pipeline.disassemble source) disassemblySteps files)
      choices := by
  have orderly := orderly_run (pipeline.leads_disassemble source) disassemblySteps files choices
  have accounted : ((new (pipeline.disassemble source) disassemblySteps files).run
      choices).Accounted := accounted_run disassemblySteps files choices
  have faithful := faithful_run disassemblySteps files choices
    (pipeline.faithful_disassemble source)
  refine ⟨accounted.nodup_contents, fun tool => ?_, fun view content isReported => ?_,
    fun ended => ?_, fun ended never view content isReported => ?_, orderly.exists_ended⟩
  · have paid := paid_le_cost (.runsOf tool) (pipeline.disassemble source) disassemblySteps files
      choices
    rw [Price.paid_runsOf] at paid
    have within := paid.trans (pipeline.cost_disassemble_le (.runsOf tool) source)
    apply (Nat.cast_le.1 within).trans
    cases tool <;> decide
  · exact faithful.reported view content (mem_contents_iff.2 isReported)
  · have computed_nodup : pipeline.settings.computedViews.Nodup := List.Nodup.filter _ (by decide)
    apply (List.perm_ext_iff_of_nodup accounted.nodup_contents computed_nodup).2
    intro view
    constructor
    · intro isServed
      rcases List.mem_map.1 isServed with ⟨⟨served, content⟩, isTold, rfl⟩
      exact Pipeline.mem_computedViews.2 (faithful.reported served content isTold).1
    · intro computed
      have provides := pipeline.provides_disassemble source (Pipeline.mem_computedViews.1 computed)
      have provided := provided_run disassemblySteps files choices
        (pipeline.leads_disassemble source) provides
      obtain ⟨content, isTold⟩ :=
        accounted.exists_content (provided.delivered_of_ended ended)
      exact List.mem_map.2 ⟨_, isTold, rfl⟩
  · have isTold := mem_contents_iff.2 isReported
    constructor
    · intro isShown
      rcases (faithful.reported view content isTold).2 with isEmpty | ⟨output, dumped, _⟩
      · exact absurd isEmpty isShown
      · exact ⟨output, dumped⟩
    · rintro ⟨output, dumped⟩
      have solvent := solvent_run disassemblySteps files choices
        (pipeline.leads_disassemble source) (pipeline.settles_disassemble source view) never
      rcases solvent.paid output dumped with ⟨other, isShown, isOther⟩ | ⟨id, owes⟩
      · exact accounted.content_unique isOther isTold ▸ isShown
      · exact absurd owes (orderly.not_owes_of_ended ended id)

end World

end CompiledViews
