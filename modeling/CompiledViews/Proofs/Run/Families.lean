import CompiledViews.Proofs.Run.Threads

/-!
# Threads that start threads

A thread that does no more than a tracker offers reports how far the run is and starts further
threads, which do the same; the main thread may wait for them as well. Such threads stop none, and
each of them does what its task has to do, whoever has started it. The threads of a run are then the
main one and one for each start in the record, in the order of the starts. So once all but the main
one have ended, every task that the main thread has started has been run by one thread, and so has
every task that was started in turn, at any depth, and no other.
-/

namespace CompiledViews

namespace Task

/-- A task that only reports how far the run is and starts threads of which the same is true. It may
wait for threads, but the threads that it starts may not. -/
def UsesTracker : Task → (waits : Prop) → Prop
  | done, _ => True
  | update _ next, waits | advance _ _ next, waits | skipToEnd _ next, waits =>
    next.UsesTracker waits
  | spawn child next, waits => child.UsesTracker False ∧ next.UsesTracker waits
  | awaitAll next, waits => waits ∧ next.UsesTracker waits
  | _, _ => False

/-- The tasks that a task starts, with those that they start, and so on. -/
def descendants : Task → List Task
  | update _ next | advance _ _ next | skipToEnd _ next | awaitAll next => next.descendants
  | spawn child next => child :: (child.descendants ++ next.descendants)
  | _ => []

/-- A task and its descendants. -/
def family (task : Task) : List Task := task :: task.descendants

end Task

/-- A phase of a thread that goes on with such a task; only one that may wait waits. -/
def Phase.UsesTracker (waits : Prop) : Phase → Prop
  | ready task => task.UsesTracker waits
  | awaiting _ next => waits ∧ next.UsesTracker waits
  | inFlight .. => False
  | ended => True

/-- The tasks that have been started in a record, by whichever thread. -/
def started (record : List (Nat × Deed)) : List Task := starts (record.map Prod.snd)

@[simp]
theorem started_append (earlier new : List (Nat × Deed)) :
    started (earlier ++ new) = started earlier ++ started new := by
  simp [started]

namespace Task.UsesTracker

variable {waits more : Prop} {task : Task} {world : World} {deeds : List Deed}

theorem mono (uses : task.UsesTracker waits) (implied : waits → more) :
    task.UsesTracker more := by
  induction task with
  | done => trivial
  | update message next ih => exact ih uses
  | advance message count next ih => exact ih uses
  | skipToEnd message next ih => exact ih uses
  | spawn child next _ ih => exact ⟨uses.1, ih uses.2⟩
  | awaitAll next ih => exact ⟨implied uses.1, ih uses.2⟩
  | _ => exact uses.elim

theorem after (uses : task.UsesTracker waits) (world : World) :
    (task.after world).UsesTracker waits := by
  cases task with
  | done => trivial
  | spawn child next => exact uses.2
  | update | advance | skipToEnd | awaitAll => exact uses
  | _ => exact uses.elim

theorem does (uses : task.UsesTracker waits) (does : (task.after world).Does deeds) :
    task.Does (task.deeds world ++ deeds) := by
  cases task with
  | done | awaitAll => exact does
  | update | advance | skipToEnd | spawn => exact ⟨deeds, rfl, does⟩
  | _ => exact uses.elim

theorem exists_does (uses : task.UsesTracker waits) : ∃ deeds, task.Does deeds := by
  suffices task.Settles .dex from this.exists_does
  induction task generalizing waits with
  | done => trivial
  | update message next ih => exact ih uses
  | advance message count next ih => exact ih uses
  | skipToEnd message next ih => exact ih uses
  | spawn child next ihChild ih => exact ⟨ihChild uses.1, ih uses.2⟩
  | awaitAll next ih => exact ih uses.2
  | _ => exact uses.elim

/-- What a task does starts its children, and their families are its descendants. -/
theorem descendants_eq (uses : task.UsesTracker waits) (does : task.Does deeds) :
    task.descendants = (starts deeds).flatMap family := by
  induction task generalizing deeds with
  | done =>
      rcases does with rfl
      rfl
  | update message next ih | skipToEnd message next ih | advance message count next ih =>
      rcases does with ⟨rest, rfl, does⟩
      have same := ih uses does
      exact same
  | spawn child next _ ih =>
      rcases does with ⟨rest, rfl, does⟩
      have same := ih uses.2 does
      exact congrArg (child.family ++ ·) same
  | awaitAll next ih =>
      rcases does with ⟨rest, rfl, does⟩
      have same := ih uses.2 does
      exact same
  | _ => exact uses.elim

end Task.UsesTracker

namespace World

variable {surroundings : Surroundings} {world after : World} {made record : List (Nat × Deed)}
  {root : Task} {id : Nat}

theorem Turn.usesTracker {waits : Prop} {before later : Phase} {deeds : List Deed}
    (turn : world.Turn surroundings id before deeds later) (uses : before.UsesTracker waits) :
    later.UsesTracker waits := by
  cases turn with
  | rest => exact uses
  | stop aborted => trivial
  | step => exact Task.UsesTracker.after uses world
  | attend => exact uses
  | resume => exact uses.2
  | hear heard => exact uses.elim

theorem Turn.does_of_usesTracker {waits : Prop} {before later : Phase} {deeds rest : List Deed}
    (turn : world.Turn surroundings id before deeds later) (goesOn : world.aborted id = false)
    (uses : before.UsesTracker waits) (does : later.Does rest) : before.Does (deeds ++ rest) := by
  cases turn with
  | rest => exact does
  | stop aborted => simp [goesOn] at aborted
  | step => exact Task.UsesTracker.does uses does
  | attend => exact does
  | resume => exact ⟨rest, rfl, does⟩
  | hear heard => exact uses.elim

/-- Only a thread that stops the registered ones makes a thread stop. -/
theorem Act.aborted (act : world.Act surroundings made after)
    (aborted : after.aborted id = true) : world.aborted id = true ∨
      ∃ actor next, world.phase actor = .ready (.abortAll next) := by
  cases act with
  | @act actor task ready =>
      rcases aborted_takeStep aborted with before | ⟨⟨next, rfl⟩, _⟩
      · exact .inl before
      · exact .inr ⟨actor, next, ready⟩
  | rest => exact .inl aborted
  | cancel allowed => exact .inl aborted
  | _ => exact .inl ((aborted_setPhase ..).symm.trans aborted)

/-- A run of threads that use the tracker: its threads are the main one and those that have been
started. -/
structure Tracking (root : Task) (record : List (Nat × Deed)) (world : World) : Prop where
  goOn : ∀ id, world.aborted id = false
  uses : ∀ id, (world.phase id).UsesTracker (id = 0)
  children : ∀ child ∈ started record, child.UsesTracker False
  courses : world.Courses (root :: started record) record

theorem tracking_new (steps : Nat) (files : FileTree) (uses : root.UsesTracker True) :
    (new root steps files).Tracking root [] where
  goOn id := by cases id <;> simp [World.aborted, new, Thread.new]
  uses id := by
    cases id with
    | zero => exact uses.mono fun _ => rfl
    | succ id => exact trivial
  children child member := absurd member List.not_mem_nil
  courses := courses_new root steps files

namespace Tracking

theorem uses_of_phase (tracking : world.Tracking root record) {phase : Phase}
    (isPhase : world.phase id = phase) : phase.UsesTracker (id = 0) :=
  isPhase ▸ tracking.uses id

/-- Only the main thread waits. -/
theorem exists_ready (tracking : world.Tracking root record) (isFork : id ≠ 0)
    (goesOn : world.phase id ≠ .ended) : ∃ task, world.phase id = .ready task := by
  cases phase : world.phase id with
  | ready task => exact ⟨task, rfl⟩
  | ended => exact absurd phase goesOn
  | awaiting others next => exact absurd (tracking.uses_of_phase phase).1 isFork
  | inFlight tool command next => exact (tracking.uses_of_phase phase).elim

/-- No act makes a thread stop. -/
theorem goOn_act (tracking : world.Tracking root record) (act : world.Act surroundings made after)
    (id : Nat) : after.aborted id = false := by
  by_contra aborted
  rcases act.aborted (by simpa using aborted) with before | ⟨actor, next, ready⟩
  · simp [tracking.goOn] at before
  · exact (tracking.uses_of_phase ready).elim

theorem uses_act (tracking : world.Tracking root record) (act : world.Act surroundings made after)
    (id : Nat) : (after.phase id).UsesTracker (id = 0) := by
  rcases act.turn id with turn | ⟨isNew, _, actor, child, next, ready, _, born⟩
  · exact turn.usesTracker (tracking.uses id)
  · rw [born]
    exact (tracking.uses_of_phase ready).1.mono False.elim

theorem act (tracking : world.Tracking root record) (act : world.Act surroundings made after) :
    after.Tracking root (record ++ made) := by
  have turned (id : Nat) (rest : List Deed)
      (turn : world.Turn surroundings id (world.phase id) (own id made) (after.phase id))
      (does : (after.phase id).Does rest) : (world.phase id).Does (own id made ++ rest) :=
    turn.does_of_usesTracker (tracking.goOn id) (tracking.uses id) does
  rcases tracking.courses.act act turned with
    ⟨noStart, courses⟩ | ⟨actor, child, next, ready, rfl, courses⟩
  · have stays : started (record ++ made) = started record := by simp [started, noStart]
    refine ⟨tracking.goOn_act act, tracking.uses_act act, ?_, ?_⟩
    · rw [stays]
      exact tracking.children
    · rwa [stays]
  · have grows : started (record ++ [(actor, .start child)]) = started record ++ [child] :=
      started_append ..
    refine ⟨tracking.goOn_act act, tracking.uses_act act, fun other member => ?_, ?_⟩
    · rw [grows, List.mem_append, List.mem_singleton] at member
      rcases member with before | rfl
      · exact tracking.children other before
      · exact (tracking.uses_of_phase ready).1
    · rwa [grows, ← List.cons_append]

/-- A thread that has ended has done what its task has to do. -/
theorem does_of_ended (tracking : world.Tracking root record) {child : Task}
    (isChild : (started record)[id]? = some child) (ended : world.phase (id + 1) = .ended) :
    child.Does (own (id + 1) record) := by
  have does := tracking.courses.does (id + 1) child isChild []
  rw [ended, List.append_nil] at does
  exact does rfl

/-- What has been started has been started by the main thread or by one that was started. -/
theorem perm_starts (tracking : world.Tracking root record) :
    (started record).Perm (starts (own 0 record) ++
      (List.range (started record).length).flatMap fun id => starts (own (id + 1) record)) := by
  have perm := (perm_flatMap_own tracking.courses.inside).filterMap Deed.start?
  rw [tracking.courses.length, List.length_cons, List.range_succ_eq_map] at perm
  simpa [started, starts, List.flatMap_def, List.map_map, Function.comp_def,
    List.filterMap_flatten] using perm

/-- Once the other threads have ended, those that have been started are those that the main thread
has started and their descendants. -/
theorem started_perm (tracking : world.Tracking root record) (alone : world.Alone) :
    (started record).Perm ((starts (own 0 record)).flatMap Task.family) := by
  have children : ((List.range (started record).length).flatMap fun id =>
      starts (own (id + 1) record)).flatMap Task.family =
        (started record).flatMap Task.descendants := by
    rw [List.flatMap_assoc, List.flatMap_def, List.flatMap_def]
    refine congrArg List.flatten (List.ext_getElem (by simp) fun id _ isStarted => ?_)
    rw [List.length_map] at isStarted
    have does := tracking.does_of_ended (List.getElem?_eq_getElem isStarted) (alone _ (by simp))
    have uses := tracking.children _ (List.getElem_mem isStarted)
    simpa using (uses.descendants_eq does).symm
  have families := tracking.perm_starts.flatMap_right Task.family
  rw [List.flatMap_append, children] at families
  have parted := List.map_append_flatMap_perm (started record) id Task.descendants
  rw [List.map_id] at parted
  -- The descendants of all that have been started are on both sides, and cancel out.
  exact (List.perm_append_right_iff _).1 (parted.trans families)

end Tracking

theorem tracking_run (steps : Nat) (files : FileTree) (uses : root.UsesTracker True)
    (choices : List Choice) : ((new root steps files).run choices).Tracking root
      ((new root steps files).record choices) :=
  holds_of_acts (fun world record => world.Tracking root record) (tracking_new steps files uses)
    (fun _ act tracking => tracking.act act) (within_any _ choices)

end World

end CompiledViews
