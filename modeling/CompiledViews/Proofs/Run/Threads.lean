import CompiledViews.Proofs.Run.Contents
import CompiledViews.Proofs.Run.Terminal
import Mathlib.Data.List.Forall2

/-!
# What the threads of a run do

In a run that is not cancelled every thread does what its task has to do, and the threads beside the
main one are those that it has started. So as soon as the main thread is at its end, the record of
the run is made up of a complete course of the main thread and one of each thread it has started.
-/

namespace CompiledViews

/-- The task that is started by a deed. -/
def Deed.start? : Deed → Option Task
  | start child => some child
  | _ => none

/-- The tasks that are started by deeds. -/
def starts (deeds : List Deed) : List Task := deeds.filterMap Deed.start?

@[simp]
theorem starts_append (earlier new : List Deed) :
    starts (earlier ++ new) = starts earlier ++ starts new := by
  simp [starts]

namespace Task

/-- A task does some deeds, from its beginning to its end, in a run that is not cancelled. The files
may be any, and a tool may come to anything but a cancellation. -/
def Does : Task → List Deed → Prop
  | done, deeds => deeds = []
  | update message next, deeds | advance message _ next, deeds =>
    ∃ rest, deeds = .status message :: rest ∧ next.Does rest
  | skipToEnd message next, deeds => ∃ rest, deeds = .conclude message :: rest ∧ next.Does rest
  | log text isError next, deeds => ∃ rest, deeds = .log text isError :: rest ∧ next.Does rest
  | deliver view content next, deeds =>
    ∃ rest, deeds = .offer view content :: rest ∧ next.Does rest
  | spawn child next, deeds => ∃ rest, deeds = .start child :: rest ∧ next.Does rest
  | awaitAll next, deeds => ∃ rest, deeds = .wait :: rest ∧ next.Does rest
  | pause next, deeds => next.Does deeds
  | abortAll _, _ => False
  | askCancelled next, deeds => (next false).Does deeds
  | call tool command next, deeds => ∃ outcome rest, outcome ≠ .error .cancelled ∧
    deeds = .launch tool command :: .hear tool command outcome :: rest ∧ (next outcome).Does rest
  | change _ next, deeds => ∃ error rest, deeds = .change error :: rest ∧ (next error).Does rest
  | look next, deeds => ∃ tree, (next tree).Does deeds

end Task

/-- What a thread in a phase does up to its end. -/
def Phase.Does : Phase → List Deed → Prop
  | ready task, deeds => task.Does deeds
  | inFlight tool command next, deeds => ∃ outcome rest, outcome ≠ .error .cancelled ∧
    deeds = .hear tool command outcome :: rest ∧ (next outcome).Does rest
  | awaiting _ next, deeds => ∃ rest, deeds = .wait :: rest ∧ next.Does rest
  | ended, deeds => deeds = []

/-- A task that stops no thread can be done to its end. -/
theorem Task.Settles.exists_does {view : View} {task : Task} (settles : task.Settles view) :
    ∃ deeds, task.Does deeds := by
  induction task with
  | done => exact ⟨[], rfl⟩
  | abortAll next => exact settles.elim
  | pause next ih => exact ih settles
  | askCancelled next ih => exact ih false settles
  | spawn child next _ ih =>
      rcases ih settles.2 with ⟨rest, does⟩
      exact ⟨_, rest, rfl, does⟩
  | call tool command next ih =>
      rcases ih _ (settles.1 (.ok ⟨0, []⟩)) with ⟨rest, does⟩
      exact ⟨_, .ok ⟨0, []⟩, rest, by simp, rfl, does⟩
  | change action next ih =>
      rcases ih none (settles none) with ⟨rest, does⟩
      exact ⟨_, none, rest, rfl, does⟩
  | look next ih =>
      let tree : FileTree := ⟨.directory [], []⟩
      rcases ih tree (settles tree) with ⟨deeds, does⟩
      exact ⟨deeds, tree, does⟩
  | update message next ih =>
      rcases ih settles with ⟨rest, does⟩
      exact ⟨_, rest, rfl, does⟩
  | advance message count next ih =>
      rcases ih settles with ⟨rest, does⟩
      exact ⟨_, rest, rfl, does⟩
  | skipToEnd message next ih =>
      rcases ih settles with ⟨rest, does⟩
      exact ⟨_, rest, rfl, does⟩
  | log text isError next ih =>
      rcases ih settles with ⟨rest, does⟩
      exact ⟨_, rest, rfl, does⟩
  | deliver view content next ih =>
      rcases ih settles with ⟨rest, does⟩
      exact ⟨_, rest, rfl, does⟩
  | awaitAll next ih =>
      rcases ih settles with ⟨rest, does⟩
      exact ⟨_, rest, rfl, does⟩

namespace World

variable {ending : Text → Prop} {surroundings : Surroundings} {world after : World}
  {made record : List (Nat × Deed)}

/-- A run in good order that is not cancelled, in which no thread is stopped and each has a way to
its end. -/
structure Quiet (ending : Text → Prop) (world : World) : Prop where
  orderly : world.Orderly ending
  uncancelled : world.cancelled = false
  goOn : ∀ id, world.aborted id = false
  completes : ∀ id, ∃ rest, (world.phase id).Does rest

theorem quiet_run {view : View} {task : Task} (leads : task.Leads ending)
    (settles : task.Settles view) (steps : Nat) (files : FileTree) {choices : List Choice}
    (never : .cancel ∉ choices) : ((new task steps files).run choices).Quiet ending := by
  have solvent := solvent_run steps files choices leads settles never
  refine ⟨orderly_run leads steps files choices, cancelled_run _ never, solvent.goOn, fun id => ?_⟩
  have settles := solvent.settles id
  cases phase : ((new task steps files).run choices).phase id with
  | ended => exact ⟨[], rfl⟩
  | ready task =>
      rw [phase] at settles
      exact settles.exists_does
  | inFlight tool command next =>
      rw [phase] at settles
      rcases (settles.1 (.ok ⟨0, []⟩)).exists_does with ⟨rest, does⟩
      exact ⟨_, .ok ⟨0, []⟩, rest, by simp, rfl, does⟩
  | awaiting others next =>
      rw [phase] at settles
      rcases settles.exists_does with ⟨rest, does⟩
      exact ⟨_, rest, rfl, does⟩

/-- When the main thread is at its end, so are the others. -/
theorem Orderly.ended_of_main (orderly : world.Orderly ending) (ended : world.hasEnded 0 = true)
    (id : Nat) : world.phase id = .ended := by
  by_cases isMain : id = 0
  · exact isMain ▸ hasEnded_iff.1 ended
  · by_contra goesOn
    have main := (orderly.leads_of_fork isMain goesOn).1
    rw [hasEnded_iff.1 ended] at main
    exact main

/-- What a thread does after a turn it does after the deeds of the turn. -/
theorem Turn.does {id : Nat} {later : Phase} {deeds rest : List Deed}
    (turn : world.Turn .calm id (world.phase id) deeds later) (quiet : world.Quiet ending)
    (does : later.Does rest) : (world.phase id).Does (deeds ++ rest) := by
  have completes := quiet.completes id
  generalize world.phase id = before at turn completes
  cases turn with
  | rest => exact does
  | stop aborted => simp [quiet.goOn] at aborted
  | attend => exact does
  | resume => exact ⟨rest, rfl, does⟩
  | @hear tool command next outcome heard =>
      refine ⟨outcome, rest, ?_, rfl, does⟩
      rcases heard with ⟨landing, lands, rfl⟩ | cancelled
      · exact lands
      · simp [quiet.uncancelled] at cancelled
  | @step task =>
      cases task with
      | done => exact does
      | pause next => exact does
      | awaitAll next => exact does
      | abortAll next =>
          rcases completes with ⟨_, impossible⟩
          exact impossible.elim
      | askCancelled next =>
          rw [Task.after, quiet.uncancelled] at does
          exact does
      | call tool command next =>
          rw [Task.after_call, quiet.uncancelled] at does
          rcases does with ⟨outcome, later, allowed, rfl, does⟩
          exact ⟨outcome, later, allowed, by simp [Task.deeds, quiet.uncancelled], does⟩
      | change action next => exact ⟨_, rest, rfl, does⟩
      | look next => exact ⟨_, does⟩
      | _ => exact ⟨rest, rfl, does⟩

/-- The deeds of an act are those of threads that there are. -/
theorem Act.inside (act : world.Act surroundings made after) :
    ∀ entry ∈ made, entry.1 < world.threads.length := by
  intro entry member
  cases act with
  | act ready =>
      rcases List.mem_map.1 member with ⟨deed, _, rfl⟩
      exact lt_of_phase ready (by simp)
  | resume waits none =>
      rcases List.mem_singleton.1 member with rfl
      exact lt_of_phase waits (by simp)
  | land flies landing uncancelled lands =>
      rcases List.mem_singleton.1 member with rfl
      exact lt_of_phase flies (by simp)
  | drop flies cancelled =>
      rcases List.mem_singleton.1 member with rfl
      exact lt_of_phase flies (by simp)
  | _ => exact absurd member List.not_mem_nil

/-- A step of a task starts a thread, or none. -/
theorem starts_deeds (world : World) (task : Task) :
    (∃ child next, task = .spawn child next) ∨
      task.spawned world = [] ∧ starts (task.deeds world) = [] := by
  cases task with
  | spawn child next => exact .inl ⟨child, next, rfl⟩
  | call tool command next =>
      refine .inr ⟨rfl, ?_⟩
      simp only [Task.deeds]
      split <;> rfl
  | _ => exact .inr ⟨rfl, rfl⟩

/-- An act starts no thread, or is a step of a thread that starts one. -/
theorem Act.births (act : world.Act surroundings made after) :
    CompiledViews.starts (made.map Prod.snd) = [] ∧
        after.threads.length = world.threads.length ∨
      ∃ id child next, world.phase id = .ready (.spawn child next) ∧ made = [(id, .start child)] ∧
        after.threads.length = world.threads.length + 1 ∧
        after.phase world.threads.length = .ready child := by
  cases act with
  | @act id task ready =>
      rcases starts_deeds world task with ⟨child, next, rfl⟩ | ⟨noThread, noStart⟩
      · refine .inr ⟨id, child, next, ready, rfl, ?_, ?_⟩
        · simp [length_takeStep, Task.spawned]
        · simp [World.phase, takeStep, Thread.new]
      · refine .inl ⟨?_, by simp [length_takeStep, noThread]⟩
        simpa [List.map_map, Function.comp_def] using noStart
  | rest => exact .inl ⟨rfl, rfl⟩
  | cancel allowed => exact .inl ⟨rfl, rfl⟩
  | stop aborted goesOn => exact .inl ⟨rfl, by simp⟩
  | collect waits => exact .inl ⟨rfl, by simp⟩
  | skip waits ended => exact .inl ⟨rfl, by simp⟩
  | resume waits none => exact .inl ⟨rfl, by simp⟩
  | land flies landing uncancelled lands => exact .inl ⟨rfl, by simp⟩
  | drop flies cancelled => exact .inl ⟨rfl, by simp⟩

theorem starts_own_eq_nil {id : Nat} (none : starts (made.map Prod.snd) = []) :
    starts (own id made) = [] := by
  have own_of_all : (own id made).Sublist (made.map Prod.snd) := List.filter_sublist.map _
  exact List.eq_nil_of_sublist_nil (none ▸ own_of_all.filterMap _)

/-- Where the forks only make dumps, the main thread alone starts threads. -/
theorem Orderly.eq_main_of_spawn (orderly : world.Orderly ending) {id : Nat} {child next : Task}
    (ready : world.phase id = .ready (.spawn child next)) : id = 0 := by
  by_contra isFork
  have forked := orderly.forked id isFork
  rw [ready] at forked
  exact forked.elim

theorem getElem?_concat_eq_some {origins : List Task} {child origin : Task} {id : Nat}
    (found : (origins ++ [child])[id]? = some origin) :
    origins[id]? = some origin ∨ id = origins.length ∧ child = origin := by
  by_cases small : id < origins.length
  · exact .inl (by rwa [List.getElem?_append_left small] at found)
  · rw [List.getElem?_append_right (Nat.le_of_not_lt small)] at found
    rcases List.getElem?_eq_some_iff.1 found with ⟨last, isChild⟩
    rw [List.length_singleton] at last
    exact .inr ⟨by omega, by simpa using isChild⟩

/-- The threads of a run have begun with some tasks, and what each of them still does comes after
what it has done. -/
structure Courses (origins : List Task) (record : List (Nat × Deed)) (world : World) : Prop where
  length : world.threads.length = origins.length
  inside : ∀ entry ∈ record, entry.1 < world.threads.length
  does : ∀ id origin, origins[id]? = some origin →
    ∀ rest, (world.phase id).Does rest → origin.Does (own id record ++ rest)

namespace Courses

variable {origins : List Task} (courses : world.Courses origins record)
  (acts : world.Act surroundings made after)
  (turned : ∀ id rest, world.Turn surroundings id (world.phase id) (own id made) (after.phase id) →
    (after.phase id).Does rest → (world.phase id).Does (own id made ++ rest))

include courses acts turned

/-- A thread that there was already has made a turn. -/
theorem does_act {id : Nat} {origin : Task} (found : origins[id]? = some origin)
    {rest : List Deed} (does : (after.phase id).Does rest) :
    origin.Does (own id (record ++ made) ++ rest) := by
  rcases acts.turn id with turn | ⟨isNew, _⟩
  · rw [own_append, List.append_assoc]
    exact courses.does id origin found _ (turned id rest turn does)
  · have small := (List.getElem?_eq_some_iff.1 found).1
    exact absurd (isNew.trans courses.length) small.ne

/-- An act that starts no thread leaves the tasks that the threads have begun with, and one that
starts a thread adds the task of that. -/
theorem act :
    CompiledViews.starts (made.map Prod.snd) = [] ∧ after.Courses origins (record ++ made) ∨
      ∃ actor child next, world.phase actor = .ready (.spawn child next) ∧
        made = [(actor, .start child)] ∧ after.Courses (origins ++ [child]) (record ++ made) := by
  have inside {entry : Nat × Deed} (member : entry ∈ record ++ made) :
      entry.1 < world.threads.length :=
    (List.mem_append.1 member).elim (courses.inside entry) (acts.inside entry)
  rcases acts.births with ⟨noStart, same⟩ | ⟨actor, child, next, ready, isStart, grown, born⟩
  · refine .inl ⟨noStart, same.trans courses.length, fun entry member => same ▸ inside member, ?_⟩
    exact fun id origin found rest does => courses.does_act acts turned found does
  · refine .inr ⟨actor, child, next, ready, isStart, ?_, fun entry member => ?_, ?_⟩
    · rw [grown, courses.length, List.length_append, List.length_singleton]
    · have small := inside member
      omega
    · intro id origin found rest does
      rcases getElem?_concat_eq_some found with before | ⟨isNew, rfl⟩
      · exact courses.does_act acts turned before does
      · -- The thread has just been started, and has done nothing yet.
        rw [← courses.length] at isNew
        rw [isNew, born] at does
        rw [isNew, own_append, own_eq_nil courses.inside, own_eq_nil acts.inside]
        exact does

end Courses

theorem courses_new (task : Task) (steps : Nat) (files : FileTree) :
    (new task steps files).Courses [task] [] where
  length := rfl
  inside entry member := absurd member List.not_mem_nil
  does id origin found rest does := by
    rcases List.getElem?_eq_some_iff.1 found with ⟨isMain, rfl⟩
    obtain rfl := Nat.lt_one_iff.1 isMain
    exact does

/-- The threads of a run are the main one and those it has started, and what each of them still does
comes after what it has done. -/
structure Traced (root : Task) (record : List (Nat × Deed)) (world : World) : Prop where
  length : world.threads.length = (starts (own 0 record)).length + 1
  inside : ∀ entry ∈ record, entry.1 < world.threads.length
  does : ∀ id origin, (root :: starts (own 0 record))[id]? = some origin →
    ∀ rest, (world.phase id).Does rest → origin.Does (own id record ++ rest)

theorem traced_iff_courses {root : Task} :
    world.Traced root record ↔ world.Courses (root :: starts (own 0 record)) record :=
  ⟨fun traced => ⟨traced.length, traced.inside, traced.does⟩,
    fun courses => ⟨courses.length, courses.inside, courses.does⟩⟩

theorem Traced.act {root : Task} (traced : world.Traced root record) (quiet : world.Quiet ending)
    (act : world.Act .calm made after) : after.Traced root (record ++ made) := by
  rw [traced_iff_courses] at traced ⊢
  rw [own_append, starts_append]
  rcases traced.act act (fun _ _ turn => turn.does quiet) with
    ⟨noStart, courses⟩ | ⟨actor, child, next, ready, rfl, courses⟩
  · rwa [starts_own_eq_nil noStart, List.append_nil]
  · obtain rfl := quiet.orderly.eq_main_of_spawn ready
    exact courses

/-- The record is made up of what its threads have done. -/
theorem Traced.perm {root : Task} (traced : world.Traced root record) :
    (record.map Prod.snd).Perm (own 0 record ++
      ((List.range (starts (own 0 record)).length).map fun id => own (id + 1) record).flatten) := by
  have perm := perm_flatMap_own traced.inside
  rw [traced.length, List.range_succ_eq_map] at perm
  simpa [List.flatMap_def, List.map_map, Function.comp_def] using perm

theorem traced_new (task : Task) (steps : Nat) (files : FileTree) :
    (new task steps files).Traced task [] :=
  traced_iff_courses.2 (courses_new task steps files)

section calm

variable {view : View} {task : Task} (leads : task.Leads ending) (settles : task.Settles view)
  (steps : Nat) (files : FileTree) {choices : List Choice}
  (within : (new task steps files).Within .calm choices)

include leads settles within

theorem quiet_of_calm : ((new task steps files).run choices).Quiet ending :=
  quiet_run leads settles steps files (within.never id)

theorem traced_run : ((new task steps files).run choices).Traced task
    ((new task steps files).record choices) :=
  holds_of_acts (fun world record => world.Traced task record) (traced_new task steps files)
    (fun earlier act traced => traced.act (quiet_of_calm leads settles steps files earlier) act)
    within

/-- The main thread has begun what it does up to the end of its task. -/
theorem exists_does_main :
    ∃ rest, task.Does (own 0 ((new task steps files).record choices) ++ rest) := by
  rcases (quiet_of_calm leads settles steps files within).completes 0 with ⟨rest, does⟩
  exact ⟨rest, (traced_run leads settles steps files within).does 0 task rfl rest does⟩

/-- So has each thread that it has started. -/
theorem exists_does_fork {id : Nat} {child : Task}
    (isChild : (starts (own 0 ((new task steps files).record choices)))[id]? = some child) :
    ∃ rest, child.Does (own (id + 1) ((new task steps files).record choices) ++ rest) := by
  rcases (quiet_of_calm leads settles steps files within).completes (id + 1) with ⟨rest, does⟩
  exact ⟨rest, (traced_run leads settles steps files within).does (id + 1) child isChild rest does⟩

variable (ended : ((new task steps files).run choices).hasEnded 0 = true)

include ended

theorem does_main : task.Does (own 0 ((new task steps files).record choices)) := by
  have traced := traced_run leads settles steps files within
  have does := traced.does 0 task rfl []
  rw [hasEnded_iff.1 ended, List.append_nil] at does
  exact does rfl

theorem does_fork {id : Nat} {child : Task}
    (isChild : (starts (own 0 ((new task steps files).record choices)))[id]? = some child) :
    child.Does (own (id + 1) ((new task steps files).record choices)) := by
  have orderly := (quiet_of_calm leads settles steps files within).orderly
  have does := (traced_run leads settles steps files within).does (id + 1) child isChild []
  rw [orderly.ended_of_main ended, List.append_nil] at does
  exact does rfl

/-- The record of a run that has come to its end is made up of what its threads do. -/
theorem exists_courses : ∃ courses : List (List Deed),
    (((new task steps files).record choices).map Prod.snd).Perm
      (own 0 ((new task steps files).record choices) ++ courses.flatten) ∧
    List.Forall₂ Task.Does (starts (own 0 ((new task steps files).record choices))) courses := by
  have traced := traced_run leads settles steps files within
  refine ⟨(List.range (starts (own 0 ((new task steps files).record choices))).length).map
    fun id => own (id + 1) ((new task steps files).record choices), traced.perm, ?_⟩
  rw [List.forall₂_iff_get]
  refine ⟨by simp, fun id isStarted _ => ?_⟩
  have isChild := List.getElem?_eq_getElem isStarted
  simpa using does_fork leads settles steps files within ended isChild

end calm

end World

end CompiledViews
