import CompiledViews.Proofs.Run.Deliveries

/-!
# Dumps that are shown

When the dump tool of a view exits with success, the thread that has run it owes the view contents
that are not empty. Threads pay what they owe unless they are stopped, and no thread is stopped in a
run that is not cancelled; the main thread comes to fill with empty contents only after the others
have paid.
-/

namespace CompiledViews

namespace Task

/-- A task that comes to deliver contents for a view that are not empty, before it asks or waits
for anything. -/
def Owes (view : View) : Task → Prop
  | deliver shown content next => if shown = view then content ≠ .empty else next.Owes view
  | update _ next | advance _ _ next | log _ _ next | pause next => next.Owes view
  | _ => False

/-- A task that owes a view contents whenever it has run the dump tool of the view with success, and
that stops no thread as long as the run is not cancelled. -/
def Settles (view : View) : Task → Prop
  | done => True
  | abortAll _ => False
  | update _ next | advance _ _ next | skipToEnd _ next | log _ _ next | deliver _ _ next
  | awaitAll next | pause next => next.Settles view
  | spawn child next => child.Settles view ∧ next.Settles view
  | askCancelled next => (next false).Settles view
  | call tool _ next =>
    (∀ outcome, (next outcome).Settles view) ∧
      (tool = view.tool → ∀ output, (next (.ok ⟨0, output⟩)).Owes view)
  | change _ next => ∀ error, (next error).Settles view
  | look next => ∀ tree, (next tree).Settles view

variable {view : View} {task : Task}

theorem inherited_settles (view : View) :
    Inherited (fun world => world.cancelled = false) fun _ task => task.Settles view where
  mono settles _ := settles
  after {exits task} world uncancelled settles := by
    cases task with
    | done => trivial
    | spawn child next => exact settles.2
    | abortAll next => exact settles.elim
    | askCancelled next =>
        simp only [after, uncancelled]
        exact settles
    | call tool command next =>
        rw [after_call]
        split
        · exact settles.1 _
        · exact settles
    | change action next => exact settles _
    | look next => exact settles _
    | _ => exact settles
  child settles := settles.1
  error settles error := settles.1 _
  result settles result := settles.1 _

/-- Nothing is owed where nothing but filling is left. -/
theorem Fills.not_owes (fills : task.Fills) : ¬task.Owes view := by
  induction task with
  | deliver shown content next ih =>
      intro owes
      simp only [Owes] at owes
      split at owes
      · exact owes fills.1
      · exact ih fills.2 owes
  | done => exact id
  | awaitAll next => exact id
  | _ => exact fills.elim

end Task

/-- A phase in which a thread owes a view contents. -/
def Phase.Owes (view : View) : Phase → Prop
  | ready task => task.Owes view
  | _ => False

namespace World

variable {ending : Text → Prop} {view : View} {world after : World}
  {exits new : List (Tool × ToolResult)}

/-- While something is owed no empty contents have been reported. -/
theorem Orderly.unfilled_of_owes (orderly : world.Orderly ending) {id : Nat}
    (owes : (world.phase id).Owes view) : world.Unfilled := by
  by_cases isMain : id = 0
  · subst isMain
    cases orderly.stage with
    | leads main waited unfilled => exact unfilled
    | closes main alone unfilled => exact unfilled
    | fills main alone concluded =>
        cases phase : world.phase 0 with
        | ready task =>
            rw [phase] at main owes
            exact absurd owes main.not_owes
        | _ =>
            rw [phase] at owes
            exact owes.elim
  · have goesOn : world.phase id ≠ .ended := fun ended => by
      rw [ended] at owes
      exact owes
    exact (orderly.leads_of_fork isMain goesOn).2.2.2

/-- A world of a run that is not cancelled, in which every dump that a tool has left behind is
shown or still owed. -/
structure Solvent (view : View) (exits : List (Tool × ToolResult)) (world : World) : Prop where
  goOn : ∀ id, world.aborted id = false
  settles : ∀ id, (world.phase id).KeepsTo (fun _ task => task.Settles view) exits
  paid : ∀ output, Dumped exits view output →
    (∃ content, content ≠ .empty ∧ (view, content) ∈ contents world.reports) ∨
      ∃ id, (world.phase id).Owes view

theorem Solvent.takeStep (solvent : world.Solvent view exits) (accounted : world.Accounted)
    (orderly : world.Orderly ending) (uncancelled : world.cancelled = false) {id : Nat}
    {task : Task} (ready : world.phase id = .ready task) :
    (world.takeStep id task).Solvent view exits where
  goOn other := by
    by_contra aborted
    rcases aborted_takeStep (by simpa using aborted) with before | ⟨⟨next, rfl⟩, _⟩
    · simp [solvent.goOn] at before
    · have settles := solvent.settles id
      rw [ready] at settles
      exact settles.elim
  settles := by
    have kept := (Task.inherited_settles view).move uncancelled solvent.settles (.act ready)
    simpa using kept
  paid output dumped := by
    have exists_ := lt_of_phase ready (by simp)
    have still {content : Content} (isShown : content ≠ .empty)
        (isReported : (view, content) ∈ contents world.reports) :
        ∃ content, content ≠ .empty ∧
          (view, content) ∈ contents (world.takeStep id task).reports := by
      rw [reports_takeStep, contents_append]
      exact ⟨content, isShown, List.mem_append_left _ isReported⟩
    rcases solvent.paid output dumped with ⟨content, isShown, isReported⟩ | ⟨debtor, owes⟩
    · exact .inl (still isShown isReported)
    · rcases phase_takeStep exists_ task debtor with
        ⟨_, same⟩ | ⟨rfl, stepped⟩ | ⟨isNew, _⟩
      · exact .inr ⟨debtor, same ▸ owes⟩
      · have unfilled := orderly.unfilled_of_owes owes
        rw [ready] at owes
        cases task with
        | deliver shown content next =>
            simp only [Phase.Owes, Task.Owes] at owes
            split at owes
            case isTrue same =>
              subst same
              by_cases known : shown ∈ world.delivered
              · rcases accounted.exists_content known with ⟨earlier, isReported⟩
                refine .inl (still (fun isEmpty => ?_) isReported)
                exact unfilled shown (isEmpty ▸ mem_contents_iff.1 isReported)
              · refine .inl ⟨content, owes, mem_contents_iff.2 ?_⟩
                simp [reports_takeStep, Task.reported, known]
            case isFalse _ => exact .inr ⟨debtor, stepped ▸ owes⟩
        | update | advance | log | pause => exact .inr ⟨debtor, stepped ▸ owes⟩
        | _ => exact owes.elim
      · have absent : world.phase debtor = .ended := by simp [phase, isNew]
        rw [absent] at owes
        exact owes.elim

/-- What is owed stays owed when another thread gets on, or the debtor itself where it waits. -/
theorem Solvent.setPhase (solvent : world.Solvent view exits) {changed : World} {id : Nat}
    {phase : Phase} (threads : changed.threads = world.threads)
    (reports : changed.reports = world.reports) (waits : ¬(world.phase id).Owes view)
    (settles : ∀ other, ((changed.setPhase id phase).phase other).KeepsTo
      (fun _ task => task.Settles view) (exits ++ new))
    (paid : ∀ output, Dumped new view output →
      ((changed.setPhase id phase).phase id).Owes view) :
    (changed.setPhase id phase).Solvent view (exits ++ new) where
  goOn other := by
    rw [aborted_setPhase]
    simpa [aborted, threads] using solvent.goOn other
  settles := settles
  paid output dumped := by
    rcases List.mem_append.1 dumped with earlier | now
    · rcases solvent.paid output earlier with ⟨content, isShown, isReported⟩ | ⟨debtor, owes⟩
      · exact .inl ⟨content, isShown, by rw [← reports] at isReported; exact isReported⟩
      · have different : debtor ≠ id := fun same => waits (same ▸ owes)
        have same : (changed.setPhase id phase).phase debtor = world.phase debtor :=
          (phase_setPhase_of_ne different phase).trans (phase_of_threads (by rw [threads]))
        exact .inr ⟨debtor, same ▸ owes⟩
    · exact .inr ⟨id, paid output now⟩

theorem Solvent.move (solvent : world.Solvent view exits) (accounted : world.Accounted)
    (orderly : world.Orderly ending) (uncancelled : world.cancelled = false)
    (stays : after.cancelled = false) (move : world.Move new after) :
    after.Solvent view (exits ++ new) := by
  have settles := (Task.inherited_settles view).move uncancelled solvent.settles move
  have nothing {phase : Phase} (output : Text) (dumped : Dumped [] view output) :
      phase.Owes view := absurd dumped List.not_mem_nil
  cases move with
  | rest => simpa using solvent
  | cancel => simp at stays
  | stop aborted goesOn => simp [solvent.goOn] at aborted
  | act ready =>
      rw [List.append_nil]
      exact solvent.takeStep accounted orderly uncancelled ready
  | collect waits =>
      exact solvent.setPhase rfl rfl (by simp [waits, Phase.Owes]) settles nothing
  | resume waits none =>
      exact solvent.setPhase rfl rfl (by simp [waits, Phase.Owes]) settles nothing
  | skip waits ended =>
      exact solvent.setPhase rfl rfl (by simp [waits, Phase.Owes]) settles nothing
  | fail flies error files =>
      exact solvent.setPhase rfl rfl (by simp [flies, Phase.Owes]) settles nothing
  | @exit id tool command next flies result files _ =>
      refine solvent.setPhase rfl rfl (by simp [flies, Phase.Owes]) settles
        fun output dumped => ?_
      have owes := solvent.settles id
      rw [flies] at owes
      rcases Prod.mk.inj (List.mem_singleton.1 dumped) with ⟨rfl, rfl⟩
      rw [phase_setPhase_self (by exact lt_of_phase flies (by simp))]
      exact owes.2 rfl output

end World

end CompiledViews
