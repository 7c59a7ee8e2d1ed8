import CompiledViews.Proofs.Run.Stages

/-!
# The deliveries of a run

Each view gets contents once. What it gets is empty or what its format reads from the output of its
own dump tool, which has exited with success by then; and if the main thread provides for a view on
every course of its task, the view has got contents when the main thread is at its end.
-/

namespace CompiledViews

namespace View

/-- The tool that makes the dump of a view. -/
def tool : View → Tool
  | byteCode => .javap
  | dex => .dexdump
  | oat => .oatdump

/-- The format of the dump of a view. -/
def format : View → Dump.Format
  | byteCode => .javap
  | dex => .dexdump
  | oat => .oatdump

end View

/-- The dump tool of a view has exited with success and left an output behind. -/
def Dumped (exits : List (Tool × ToolResult)) (view : View) (output : Text) : Prop :=
  (view.tool, ⟨0, output⟩) ∈ exits

/-- The contents that reports tell, view by view. -/
def contents (reports : List Report) : List (View × Content) :=
  reports.filterMap fun
    | .content view content => some (view, content)
    | _ => none

@[simp]
theorem contents_append (earlier new : List Report) :
    contents (earlier ++ new) = contents earlier ++ contents new := by
  simp [contents]

theorem mem_contents_iff {reports : List Report} {view : View} {content : Content} :
    (view, content) ∈ contents reports ↔ .content view content ∈ reports := by
  simp only [contents, List.mem_filterMap]
  constructor
  · rintro ⟨report, member, told⟩
    cases report <;> simp at told
    rcases told with ⟨rfl, rfl⟩
    exact member
  · exact fun member => ⟨_, member, rfl⟩

/-- Contents that a view may get: it is one of those that are served, and the contents are empty or
what its dump has to show. -/
def Justified (served : View → Prop) (exits : List (Tool × ToolResult)) (view : View)
    (content : Content) : Prop :=
  served view ∧
    (content = .empty ∨ ∃ output, Dumped exits view output ∧ content = view.format.content output)

theorem Justified.mono {served : View → Prop} {earlier later : List (Tool × ToolResult)}
    {view : View} {content : Content} (justified : Justified served earlier view content)
    (more : ∀ exit ∈ earlier, exit ∈ later) : Justified served later view content := by
  refine justified.imp_right fun known => known.imp_right ?_
  rintro ⟨output, dumped, same⟩
  exact ⟨output, more _ dumped, same⟩

namespace Task

/-- A task that delivers justified contents only. -/
def Faithful (served : View → Prop) (exits : List (Tool × ToolResult)) : Task → Prop
  | done => True
  | update _ next | advance _ _ next | skipToEnd _ next | log _ _ next | abortAll next
  | awaitAll next | pause next => next.Faithful served exits
  | deliver view content next =>
    Justified served exits view content ∧ next.Faithful served exits
  | spawn child next => child.Faithful served exits ∧ next.Faithful served exits
  | askCancelled next => ∀ answer, (next answer).Faithful served exits
  | call tool _ next =>
    (∀ result, (next (.ok result)).Faithful served (exits ++ [(tool, result)])) ∧
      ∀ error, (next (.error error)).Faithful served exits
  | change _ next => ∀ error, (next error).Faithful served exits
  | look next => ∀ tree, (next tree).Faithful served exits

variable {served : View → Prop} {task : Task}

theorem Faithful.mono {earlier later : List (Tool × ToolResult)}
    (faithful : task.Faithful served earlier) (more : ∀ exit ∈ earlier, exit ∈ later) :
    task.Faithful served later := by
  induction task generalizing earlier later with
  | done => trivial
  | deliver view content next ih => exact ⟨faithful.1.mono more, ih faithful.2 more⟩
  | spawn child next childIh ih => exact ⟨childIh faithful.1 more, ih faithful.2 more⟩
  | askCancelled next ih => exact fun answer => ih answer (faithful answer) more
  | call tool command next ih =>
      refine ⟨fun result => ih _ (faithful.1 result) fun exit member => ?_,
        fun error => ih _ (faithful.2 error) more⟩
      exact List.mem_append.2 ((List.mem_append.1 member).imp_left (more exit))
  | change action next ih => exact fun error => ih error (faithful error) more
  | look next ih => exact fun tree => ih tree (faithful tree) more
  | update message next ih => exact ih faithful more
  | advance message count next ih => exact ih faithful more
  | skipToEnd message next ih => exact ih faithful more
  | log text isError next ih => exact ih faithful more
  | abortAll next ih => exact ih faithful more
  | awaitAll next ih => exact ih faithful more
  | pause next ih => exact ih faithful more

theorem inherited_faithful : Inherited (fun _ => True) (Faithful served) where
  mono := Faithful.mono
  after {exits task} world _ faithful := by
    cases task with
    | done => trivial
    | deliver view content next => exact faithful.2
    | spawn child next => exact faithful.2
    | askCancelled next => exact faithful _
    | call tool command next =>
        rw [after_call]
        split
        · exact faithful.2 _
        · exact faithful
    | change action next => exact faithful _
    | look next => exact faithful _
    | _ => exact faithful
  child faithful := faithful.1
  error faithful error := faithful.2 error
  result faithful result := faithful.1 result

/-- A task that provides a view with contents on every course. -/
def Provides (view : View) : Task → Prop
  | done => False
  | update _ next | advance _ _ next | skipToEnd _ next | log _ _ next | spawn _ next
  | abortAll next | awaitAll next | pause next => next.Provides view
  | deliver shown _ next => shown = view ∨ next.Provides view
  | askCancelled next => ∀ answer, (next answer).Provides view
  | call _ _ next => ∀ outcome, (next outcome).Provides view
  | change _ next => ∀ error, (next error).Provides view
  | look next => ∀ tree, (next tree).Provides view

end Task

/-- A phase from which a thread provides a view with contents on every course. -/
def Phase.Provides (view : View) : Phase → Prop
  | ready task | awaiting _ task => task.Provides view
  | inFlight _ _ next => ∀ outcome, (next outcome).Provides view
  | ended => False

theorem Task.Provides.after {view : View} {task : Task} (world : World)
    (provides : task.Provides view) :
    view ∈ task.delivers world ++ world.delivered ∨ (task.after world).Provides view := by
  cases task with
  | done => exact provides.elim
  | deliver shown content next =>
      apply provides.imp_left
      rintro rfl
      by_cases known : shown ∈ world.delivered <;> simp [delivers, known]
  | askCancelled next => exact .inr (provides _)
  | call tool command next =>
      rw [after_call]
      split
      · exact .inr (provides _)
      · exact .inr provides
  | change action next => exact .inr (provides _)
  | look next => exact .inr (provides _)
  | _ => exact .inr provides

namespace World

variable {ending : Text → Prop} {served : View → Prop} {view : View} {world after : World}
  {exits new : List (Tool × ToolResult)}

/-- The views that have got contents, each once, are those whose contents have been reported. -/
structure Accounted (world : World) : Prop where
  views : (contents world.reports).map Prod.fst = world.delivered.reverse
  once : world.delivered.Nodup

theorem Accounted.move (accounted : world.Accounted) (move : world.Move new after) :
    after.Accounted := by
  cases move with
  | @act id task ready =>
      refine ⟨?_, ?_⟩
      · rw [reports_takeStep, delivered_takeStep, contents_append, List.map_append,
          accounted.views, List.reverse_append]
        apply congrArg _
        cases task with
        | deliver shown content next =>
            simp only [Task.reported, Task.delivers]
            split <;> rfl
        | _ => rfl
      · rw [delivered_takeStep]
        cases task with
        | deliver shown content next =>
            by_cases known : shown ∈ world.delivered <;>
              simp [Task.delivers, known, accounted.once]
        | _ => exact accounted.once
  | _ => exact ⟨accounted.views, accounted.once⟩

theorem Accounted.exists_content (accounted : world.Accounted) (known : view ∈ world.delivered) :
    ∃ content, (view, content) ∈ contents world.reports := by
  rw [← List.mem_reverse, ← accounted.views] at known
  rcases List.mem_map.1 known with ⟨⟨_, content⟩, isReported, rfl⟩
  exact ⟨content, isReported⟩

/-- Contents that have been reported are justified, and those to come will be. -/
structure Faithful (served : View → Prop) (exits : List (Tool × ToolResult)) (world : World) :
    Prop where
  tasks : ∀ id, (world.phase id).KeepsTo (Task.Faithful served) exits
  reported : ∀ view content, (view, content) ∈ contents world.reports →
    Justified served exits view content

theorem Faithful.move (faithful : world.Faithful served exits) (move : world.Move new after) :
    after.Faithful served (exits ++ new) where
  tasks := Task.inherited_faithful.move trivial faithful.tasks move
  reported view content isReported := by
    have justified_earlier (earlier : (view, content) ∈ contents world.reports) :
        Justified served (exits ++ new) view content :=
      (faithful.reported view content earlier).mono fun _ => List.mem_append_left new
    cases move with
    | @act id task ready =>
        rw [reports_takeStep, contents_append, List.mem_append] at isReported
        rcases isReported with earlier | now
        · exact justified_earlier earlier
        · rcases Task.deliver_of_reported (mem_contents_iff.1 now) with ⟨next, rfl⟩
          have known := faithful.tasks id
          rw [ready] at known
          rw [List.append_nil]
          exact known.1
    | _ => exact justified_earlier isReported

/-- A view has got contents, or the main thread will provide for that. -/
def Provided (view : View) (world : World) : Prop :=
  view ∈ world.delivered ∨ (world.phase 0).Provides view

/-- Another phase of a thread keeps up what is provided, if it is not the main thread or its new
phase provides as well. -/
theorem Provided.setPhase (provided : world.Provided view) (inside : 0 < world.threads.length)
    {changed : World} {id : Nat} {old phase : Phase} (threads : changed.threads = world.threads)
    (delivered : changed.delivered = world.delivered) (isPhase : world.phase id = old)
    (main : id = 0 → old.Provides view → phase.Provides view) :
    (changed.setPhase id phase).Provided view := by
  rcases provided with known | provides
  · exact .inl (delivered ▸ known)
  · refine .inr ?_
    by_cases isMain : id = 0
    · subst isMain
      rw [phase_setPhase_self (threads ▸ inside)]
      exact main rfl (isPhase ▸ provides)
    · have same : (changed.setPhase id phase).phase 0 = world.phase 0 :=
        (phase_setPhase_of_ne (Ne.symm isMain) phase).trans (phase_of_threads (by rw [threads]))
      exact same ▸ provides

theorem Provided.move (provided : world.Provided view) (orderly : world.Orderly ending)
    (move : world.Move new after) : after.Provided view := by
  have inside := orderly.exists_main
  cases move with
  | rest => exact provided
  | cancel => exact provided
  | stop aborted goesOn =>
      apply provided.setPhase inside rfl rfl rfl
      intro isMain
      simp [isMain, orderly.goesOn] at aborted
  | @act id task ready =>
      rcases provided with known | provides
      · exact .inl (by rw [delivered_takeStep]; exact List.mem_append_right _ known)
      · by_cases isMain : id = 0
        · subst isMain
          rw [ready] at provides
          rw [Provided, delivered_takeStep, phase_takeStep_self inside]
          exact Task.Provides.after world provides
        · refine .inr ?_
          rcases phase_takeStep (lt_of_phase ready (by simp)) task 0 with
            ⟨_, same⟩ | ⟨same, _⟩ | ⟨isNew, _⟩
          · exact same ▸ provides
          · exact absurd same.symm isMain
          · omega
  | collect waits => exact provided.setPhase inside rfl rfl waits fun _ provides => provides
  | resume waits none => exact provided.setPhase inside rfl rfl waits fun _ provides => provides
  | skip waits ended => exact provided.setPhase inside rfl rfl waits fun _ provides => provides
  | fail flies error files =>
      exact provided.setPhase inside rfl rfl flies fun _ provides => provides (.error error)
  | exit flies result files uncancelled =>
      exact provided.setPhase inside rfl rfl flies fun _ provides => provides (.ok result)

end World

end CompiledViews
