import CompiledViews.Proofs.Run.Outcome

/-!
# Runs with a script

A script gives what each tool does by its command alone. Then what a thread does is settled by its
task and the files, and only the main thread heeds the files. What the tools of the other threads do
to the files makes no difference to it, because it looks at them no more, or because they spare what
it still does with them. So each thread does the same in every run, and what all threads do up to
the end of a run is the same but for its order.
-/

namespace CompiledViews

/-- What the tools do that are run by commands. -/
abbrev Script := Tool → Command → Landing

/-- No tool ends as if the run were cancelled. -/
def Script.Answers (script : Script) : Prop :=
  ∀ tool command, (script tool command).outcome ≠ .error .cancelled

/-- The run is not cancelled, and its tools do what a script gives. -/
def Surroundings.of (script : Script) : Surroundings :=
  ⟨fun tool command landing => landing = script tool command, False⟩

/-- What a change of the files comes to: the files after it, and its error if there is one. -/
def FileTree.changed (tree : FileTree) (action : FileAction Unit) : FileTree × Option OsError :=
  match action tree with
  | .ok _ files => (files, none)
  | .error error files => (files, some error)

theorem World.change_eq (world : World) (action : FileAction Unit) : world.change action =
    ({ world with files := (world.files.changed action).1 }, (world.files.changed action).2) := by
  unfold change FileTree.changed
  cases action world.files <;> rfl

namespace Task

variable (script : Script)

/-- What one thread does from some files on, if no other thread changes them. -/
def solo : Task → FileTree → List Deed
  | done, _ => []
  | update message next, tree | advance message _ next, tree => .status message :: next.solo tree
  | skipToEnd message next, tree => .conclude message :: next.solo tree
  | log text isError next, tree => .log text isError :: next.solo tree
  | deliver view content next, tree => .offer view content :: next.solo tree
  | spawn child next, tree => .start child :: next.solo tree
  | awaitAll next, tree => .wait :: next.solo tree
  | abortAll next, tree | pause next, tree => next.solo tree
  | askCancelled next, tree => (next false).solo tree
  | call tool command next, tree =>
    .launch tool command :: .hear tool command (script tool command).outcome ::
      (next (script tool command).outcome).solo ((script tool command).effect tree)
  | change action next, tree =>
    .change (tree.changed action).2 :: (next (tree.changed action).2).solo (tree.changed action).1
  | look next, tree => (next tree).solo tree

/-- What a task does from some files on, and the tasks that it starts. -/
def total (task : Task) (tree : FileTree) : List Deed :=
  task.solo script tree ++
    (starts (task.solo script tree)).flatMap fun child => child.solo script tree

/-- A task that neither changes the files nor looks at them. -/
def Blind : Task → Prop
  | done => True
  | change _ _ | look _ => False
  | update _ next | advance _ _ next | skipToEnd _ next | log _ _ next | deliver _ _ next
  | spawn _ next | abortAll next | awaitAll next | pause next => next.Blind
  | askCancelled next => ∀ answer, (next answer).Blind
  | call _ _ next => ∀ outcome, (next outcome).Blind

/-- A task that an effect on the files makes no difference to: it heeds them no more, but for one
change that comes to the same. -/
def Bears (effect : FileTree → FileTree) : Task → Prop
  | change action next =>
    (∀ tree, ((effect tree).changed action).2 = (tree.changed action).2) ∧
      ∀ error, (next error).Blind
  | task => task.Blind

/-- A thread beside the main one that heeds no files, and runs only tools that are allowed. -/
def Calls (allowed : Tool → Command → Prop) : Task → Prop
  | done => True
  | change _ _ | look _ | spawn _ _ => False
  | update _ next | advance _ _ next | skipToEnd _ next | log _ _ next | deliver _ _ next
  | abortAll next | awaitAll next | pause next => next.Calls allowed
  | askCancelled next => ∀ answer, (next answer).Calls allowed
  | call tool command next => allowed tool command ∧ ∀ outcome, (next outcome).Calls allowed

/-- A main thread that what the tools of the threads it starts do to the files makes no difference
to. -/
def Careful : Task → Prop
  | done => True
  | spawn child next =>
    child.Calls (fun tool command => next.Bears (script tool command).effect) ∧ next.Careful
  | update _ next | advance _ _ next | skipToEnd _ next | log _ _ next | deliver _ _ next
  | abortAll next | awaitAll next | pause next => next.Careful
  | askCancelled next => ∀ answer, (next answer).Careful
  | call _ _ next => ∀ outcome, (next outcome).Careful
  | change _ next => ∀ error, (next error).Careful
  | look next => ∀ tree, (next tree).Careful

end Task

namespace Phase

variable (script : Script)

/-- What a thread in a phase does from some files on, if no other thread changes them. -/
def solo : Phase → FileTree → List Deed
  | ready task, tree => task.solo script tree
  | inFlight tool command next, tree =>
    .hear tool command (script tool command).outcome ::
      (next (script tool command).outcome).solo script ((script tool command).effect tree)
  | awaiting _ next, tree => .wait :: next.solo script tree
  | ended, _ => []

def Blind : Phase → Prop
  | ready task | awaiting _ task => task.Blind
  | inFlight _ _ next => ∀ outcome, (next outcome).Blind
  | ended => True

def Bears (effect : FileTree → FileTree) : Phase → Prop
  | ready task => task.Bears effect
  | phase => phase.Blind

def Calls (allowed : Tool → Command → Prop) : Phase → Prop
  | ready task | awaiting _ task => task.Calls allowed
  | inFlight tool command next => allowed tool command ∧ ∀ outcome, (next outcome).Calls allowed
  | ended => True

def Careful : Phase → Prop
  | ready task | awaiting _ task => task.Careful script
  | inFlight _ _ next => ∀ outcome, (next outcome).Careful script
  | ended => True

end Phase

namespace Task

variable {script : Script} {task : Task} {effect : FileTree → FileTree}
  {allowed permitted : Tool → Command → Prop}

theorem Blind.solo_eq (blind : task.Blind) (tree other : FileTree) :
    task.solo script tree = task.solo script other := by
  induction task generalizing tree other with
  | done => rfl
  | change action next => exact blind.elim
  | look next => exact blind.elim
  | pause next ih => exact ih blind tree other
  | abortAll next ih => exact ih blind tree other
  | askCancelled next ih => exact ih false (blind false) tree other
  | call tool command next ih =>
      exact congrArg (fun rest => _ :: _ :: rest) (ih _ (blind _) _ _)
  | spawn child next _ ih => exact congrArg (_ :: ·) (ih blind tree other)
  | _ =>
      rename_i ih
      exact congrArg (_ :: ·) (ih blind tree other)

theorem Blind.bears (blind : task.Blind) : task.Bears effect := by
  cases task with
  | change action next => exact blind.elim
  | _ => exact blind

/-- What is done comes to the same after an effect that the task bears. -/
theorem Bears.solo_eq (bears : task.Bears effect) (tree : FileTree) :
    task.solo script (effect tree) = task.solo script tree := by
  cases task with
  | change action next =>
      simp only [solo, bears.1 tree]
      exact congrArg (_ :: ·) ((bears.2 _).solo_eq _ _)
  | _ => exact Blind.solo_eq bears _ _

theorem Calls.mono (calls : task.Calls allowed)
    (more : ∀ tool command, allowed tool command → permitted tool command) :
    task.Calls permitted := by
  induction task with
  | done => trivial
  | change action next => exact calls.elim
  | look next => exact calls.elim
  | spawn child next => exact calls.elim
  | askCancelled next ih => exact fun answer => ih answer (calls answer)
  | call tool command next ih =>
      exact ⟨more _ _ calls.1, fun outcome => ih outcome (calls.2 outcome)⟩
  | _ =>
      rename_i ih
      exact ih calls

theorem Calls.blind (calls : task.Calls allowed) : task.Blind := by
  induction task with
  | done => trivial
  | change action next => exact calls.elim
  | look next => exact calls.elim
  | spawn child next => exact calls.elim
  | askCancelled next ih => exact fun answer => ih answer (calls answer)
  | call tool command next ih => exact fun outcome => ih outcome (calls.2 outcome)
  | _ =>
      rename_i ih
      exact ih calls

theorem Blind.after (blind : task.Blind) (world : World) : (task.after world).Blind := by
  cases task with
  | change action next => exact blind.elim
  | look next => exact blind.elim
  | askCancelled next => exact blind _
  | call tool command next =>
      rw [after_call]
      split
      · exact blind _
      · exact blind
  | _ => exact blind

end Task

theorem Phase.Blind.bears {phase : Phase} {effect : FileTree → FileTree} (blind : phase.Blind) :
    phase.Bears effect := by
  cases phase with
  | ready task => exact Task.Blind.bears blind
  | _ => exact blind

namespace Task

variable {script : Script} {task : Task} {effect : FileTree → FileTree}
  {allowed : Tool → Command → Prop}

theorem Bears.after (bears : task.Bears effect) (world : World) :
    (task.after world).Bears effect := by
  cases task with
  | change action next => exact (bears.2 _).bears
  | _ => exact (Blind.after bears world).bears

theorem Calls.after (calls : task.Calls allowed) (world : World) :
    (task.after world).Calls allowed := by
  cases task with
  | change action next => exact calls.elim
  | look next => exact calls.elim
  | spawn child next => exact calls.elim
  | askCancelled next => exact calls _
  | call tool command next =>
      rw [after_call]
      split
      · exact calls.2 _
      · exact calls
  | _ => exact calls

theorem Careful.after (careful : task.Careful script) (world : World) :
    (task.after world).Careful script := by
  cases task with
  | spawn child next => exact careful.2
  | change action next => exact careful _
  | look next => exact careful _
  | askCancelled next => exact careful _
  | call tool command next =>
      rw [after_call]
      split
      · exact careful _
      · exact careful
  | _ => exact careful

/-- A step is the first part of what its thread does, as long as the run is not cancelled. -/
theorem solo_eq_deeds (task : Task) {world : World} (uncancelled : world.cancelled = false)
    (id : Nat) : task.solo script world.files =
      task.deeds world ++ (task.after world).solo script (world.takeStep id task).files := by
  cases task with
  | deliver view content next =>
      have same : (world.takeStep id (.deliver view content next)).files = world.files := by
        simp only [World.takeStep, World.deliver]
        split <;> rfl
      rw [same]
      rfl
  | askCancelled next =>
      simp only [solo, deeds, after, uncancelled]
      rfl
  | call tool command next =>
      simp only [solo, deeds, after, World.takeStep, uncancelled]
      rfl
  | change action next =>
      simp only [solo, deeds, after, World.takeStep, World.change_eq]
      rfl
  | _ => rfl

end Task

namespace Phase

variable {script : Script} {phase : Phase} {effect : FileTree → FileTree}
  {allowed permitted : Tool → Command → Prop}

theorem Blind.solo_eq (blind : phase.Blind) (tree other : FileTree) :
    phase.solo script tree = phase.solo script other := by
  cases phase with
  | ready task => exact Task.Blind.solo_eq blind tree other
  | inFlight tool command next => exact congrArg (_ :: ·) (Task.Blind.solo_eq (blind _) _ _)
  | awaiting others next => exact congrArg (_ :: ·) (Task.Blind.solo_eq blind tree other)
  | ended => rfl

theorem Bears.solo_eq (bears : phase.Bears effect) (tree : FileTree) :
    phase.solo script (effect tree) = phase.solo script tree := by
  cases phase with
  | ready task => exact Task.Bears.solo_eq bears tree
  | inFlight tool command next =>
      have blind : (inFlight tool command next).Blind := bears
      exact blind.solo_eq _ _
  | awaiting others next =>
      have blind : (awaiting others next).Blind := bears
      exact blind.solo_eq _ _
  | ended => rfl

theorem Calls.mono (calls : phase.Calls allowed)
    (more : ∀ tool command, allowed tool command → permitted tool command) :
    phase.Calls permitted := by
  cases phase with
  | ready task => exact Task.Calls.mono calls more
  | inFlight tool command next =>
      exact ⟨more _ _ calls.1, fun outcome => Task.Calls.mono (calls.2 outcome) more⟩
  | awaiting others next => exact Task.Calls.mono calls more
  | ended => trivial

theorem Calls.blind (calls : phase.Calls allowed) : phase.Blind := by
  cases phase with
  | ready task => exact Task.Calls.blind calls
  | inFlight tool command next => exact fun outcome => Task.Calls.blind (calls.2 outcome)
  | awaiting others next => exact Task.Calls.blind calls
  | ended => trivial

end Phase

namespace World

variable {ending : Text → Prop} {surroundings : Surroundings} {script : Script}
  {effect : FileTree → FileTree} {allowed : Tool → Command → Prop} {world after : World}
  {made record : List (Nat × Deed)} {id : Nat} {before later : Phase} {deeds : List Deed}

theorem Turn.careful (turn : world.Turn surroundings id before deeds later)
    (careful : before.Careful script) : later.Careful script := by
  cases turn with
  | rest => exact careful
  | stop aborted => trivial
  | step => exact Task.Careful.after careful world
  | attend => exact careful
  | resume => exact careful
  | hear heard => exact careful _

theorem Turn.bears (turn : world.Turn surroundings id before deeds later)
    (bears : before.Bears effect) : later.Bears effect := by
  cases turn with
  | rest => exact bears
  | stop aborted => trivial
  | step => exact Task.Bears.after bears world
  | attend => exact bears
  | resume => exact Task.Blind.bears bears
  | hear heard => exact Task.Blind.bears (bears _)

theorem Turn.calls (turn : world.Turn surroundings id before deeds later)
    (calls : before.Calls allowed) : later.Calls allowed := by
  cases turn with
  | rest => exact calls
  | stop aborted => trivial
  | step => exact Task.Calls.after calls world
  | attend => exact calls
  | resume => exact calls
  | hear heard => exact calls.2 _

/-- A world in which only the main thread heeds the files, and nothing that the tools of the others
do to them makes a difference to it. -/
structure Tame (script : Script) (world : World) : Prop where
  careful : (world.phase 0).Careful script
  calls : ∀ id, id ≠ 0 → (world.phase id).Calls fun tool command =>
    (world.phase 0).Bears (script tool command).effect

theorem Tame.act (tame : world.Tame script) (orderly : world.Orderly ending)
    (act : world.Act surroundings made after) : after.Tame script := by
  rcases act.turn 0 with main | ⟨isNew, _⟩
  · refine ⟨main.careful tame.careful, fun id isFork => ?_⟩
    rcases act.turn id with turn | ⟨_, _, actor, child, next, ready, stepped, born⟩
    · exact (turn.calls (tame.calls id isFork)).mono fun tool command bears => main.bears bears
    · -- A thread that has just been started is one that the main thread has cared for.
      obtain rfl : actor = 0 := by
        by_contra isOther
        have forked := orderly.forked actor isOther
        rw [ready] at forked
        exact forked.elim
      have careful := tame.careful
      rw [ready] at careful
      rw [stepped, born]
      exact careful.1
  · exact absurd orderly.exists_main (isNew ▸ Nat.lt_irrefl 0)

theorem files_takeStep {task : Task} (blind : task.Blind) :
    (world.takeStep id task).files = world.files := by
  cases task with
  | change action next => exact blind.elim
  | deliver view content next =>
      simp only [takeStep, deliver]
      split <;> rfl
  | call tool command next =>
      simp only [takeStep]
      split <;> rfl
  | _ => rfl

/-- An act leaves to each thread what it does after the deeds of the act. -/
theorem Tame.solo_act (tame : world.Tame script) (quiet : world.Quiet ending)
    (act : world.Act (.of script) made after) (exists_ : id < world.threads.length) :
    (world.phase id).solo script world.files =
      own id made ++ (after.phase id).solo script after.files := by
  -- The threads beside the main one heed no files.
  have blind (isFork : id ≠ 0) := (tame.calls id isFork).blind
  have still {actor : Nat} {phase : Phase} {changed : World} (deeds : List Deed)
      (threads : changed.threads = world.threads) (different : id ≠ actor)
      (same : (world.phase id).solo script world.files =
        (world.phase id).solo script changed.files) :
      (world.phase id).solo script world.files = own id (deeds.map (actor, ·)) ++
        ((changed.setPhase actor phase).phase id).solo script
          (changed.setPhase actor phase).files := by
    have isPhase : (changed.setPhase actor phase).phase id = world.phase id :=
      (phase_setPhase_of_ne different phase).trans (phase_of_threads (by rw [threads]))
    rw [own_map_of_ne different, isPhase]
    exact same
  cases act with
  | rest => rfl
  | cancel allowed => exact allowed.elim
  | stop aborted goesOn => simp [quiet.goOn] at aborted
  | drop flies cancelled => simp [quiet.uncancelled] at cancelled
  | @act actor task ready =>
      by_cases same : id = actor
      · subst same
        rw [own_map_self, phase_takeStep_self exists_, ready]
        exact task.solo_eq_deeds quiet.uncancelled id
      · have isPhase : (world.takeStep actor task).phase id = world.phase id := by
          rcases phase_takeStep (lt_of_phase ready (by simp)) task id with
            ⟨_, unchanged⟩ | ⟨isActor, _⟩ | ⟨isNew, _⟩
          · exact unchanged
          · exact absurd isActor same
          · omega
        rw [own_map_of_ne same, isPhase, List.nil_append]
        by_cases isMain : id = 0
        · subst isMain
          have calls := tame.calls actor (Ne.symm same)
          rw [ready] at calls
          rw [files_takeStep (Task.Calls.blind calls)]
        · exact (blind isMain).solo_eq _ _
  | @collect actor next waits =>
      by_cases same : id = actor
      · subst same
        rw [phase_setPhase_self (by exact exists_), waits]
        rfl
      · exact still [] rfl same rfl
  | @resume actor next waits none =>
      by_cases same : id = actor
      · subst same
        rw [phase_setPhase_self exists_, waits]
        exact congrArg (· ++ _) (own_map_self [Deed.wait]).symm
      · exact still [_] rfl same rfl
  | @skip actor other others next waits ended =>
      by_cases same : id = actor
      · subst same
        rw [phase_setPhase_self exists_, waits]
        rfl
      · exact still [] rfl same rfl
  | @land actor tool command next flies landing uncancelled lands =>
      obtain rfl : landing = script tool command := lands
      by_cases same : id = actor
      · subst same
        rw [phase_setPhase_self (by exact exists_), flies]
        exact congrArg (· ++ _) (own_map_self [Deed.hear tool command _]).symm
      · refine still [_] rfl same ?_
        by_cases isMain : id = 0
        · subst isMain
          have calls := tame.calls actor (Ne.symm same)
          rw [flies] at calls
          exact (calls.1.solo_eq world.files).symm
        · exact (blind isMain).solo_eq _ _

/-- In a run with a script what a thread has done, and what it still does, is what its task does
from the first files on. -/
structure Scripted (script : Script) (root : Task) (files : FileTree)
    (record : List (Nat × Deed)) (world : World) : Prop where
  tame : world.Tame script
  same : ∀ id origin, (root :: starts (own 0 record))[id]? = some origin →
    own id record ++ (world.phase id).solo script world.files = origin.solo script files

theorem Scripted.act {root : Task} {files : FileTree}
    (scripted : world.Scripted script root files record) (quiet : world.Quiet ending)
    (traced : world.Traced root record) (act : world.Act (.of script) made after) :
    after.Scripted script root files (record ++ made) := by
  have tame := scripted.tame.act quiet.orderly act
  -- A thread that there was already has made a turn.
  have turned {id : Nat} {origin : Task}
      (found : (root :: starts (own 0 record))[id]? = some origin) :
      own id (record ++ made) ++ (after.phase id).solo script after.files =
        origin.solo script files := by
    have small : id < world.threads.length := by
      rw [traced.length]
      exact (List.getElem?_eq_some_iff.1 found).1
    rw [own_append, List.append_assoc, ← scripted.tame.solo_act quiet act small]
    exact scripted.same id origin found
  rcases act.births with ⟨noStart, _⟩ | ⟨actor, child, next, ready, isStart, _, born⟩
  · refine ⟨tame, fun id origin found => ?_⟩
    rw [own_append, starts_append, starts_own_eq_nil noStart, List.append_nil] at found
    exact turned found
  · refine ⟨tame, fun id origin found => ?_⟩
    obtain rfl := quiet.orderly.eq_main_of_spawn ready
    have started : starts (own 0 made) = [child] := by rw [isStart]; rfl
    rw [own_append, starts_append, started, ← List.cons_append] at found
    rcases getElem?_concat_eq_some found with before | ⟨isNew, rfl⟩
    · exact turned before
    · -- The thread has just been started, and has done nothing yet.
      have isThread : id = world.threads.length := isNew.trans traced.length.symm
      have isFork : id ≠ 0 := by
        have main := quiet.orderly.exists_main
        omega
      have blind := (tame.calls id isFork).blind
      rw [isThread, own_append, own_eq_nil traced.inside, own_eq_nil act.inside, born]
      rw [isThread, born] at blind
      exact blind.solo_eq _ _

section run

variable {view : View} {task : Task} (answers : script.Answers)
  (careful : task.Careful script) (leads : task.Leads ending) (settles : task.Settles view)
  (steps : Nat) (files : FileTree) {choices : List Choice}
  (within : (new task steps files).Within (.of script) choices)

theorem Within.calm {start : World} (within : start.Within (.of script) choices)
    (answers : script.Answers) : start.Within .calm choices := by
  refine within.mono (fun tool command landing lands => ?_) False.elim
  obtain rfl : landing = script tool command := lands
  exact answers tool command

theorem scripted_new (careful : task.Careful script) (steps : Nat) (files : FileTree) :
    (new task steps files).Scripted script task files [] where
  tame := by
    refine ⟨careful, fun id isFork => ?_⟩
    cases id with
    | zero => exact absurd rfl isFork
    | succ id => trivial
  same id origin found := by
    cases id with
    | zero =>
        obtain rfl : task = origin := by simpa using found
        rfl
    | succ id => simp [starts] at found

include answers careful leads settles within

theorem scripted_run : ((new task steps files).run choices).Scripted script task files
    ((new task steps files).record choices) := by
  refine holds_of_acts (fun world record => world.Scripted script task files record)
    (scripted_new careful steps files) ?_ within
  intro earlier made after earlierWithin act scripted
  have calm := earlierWithin.calm answers
  exact scripted.act (quiet_of_calm leads settles steps files calm)
    (traced_run leads settles steps files calm) act

variable (ended : ((new task steps files).run choices).hasEnded 0 = true)

include ended

/-- When the main thread is at its end, it has done what its task does alone. -/
theorem own_eq_solo : own 0 ((new task steps files).record choices) = task.solo script files := by
  have orderly := orderly_run leads steps files choices
  have same := (scripted_run answers careful leads settles steps files within).same 0 task rfl
  rw [orderly.ended_of_main ended] at same
  rw [← same]
  exact (List.append_nil _).symm

/-- Then the record is made up of what the task does alone, and what those do that it starts. -/
theorem perm_total : (((new task steps files).record choices).map Prod.snd).Perm
    (task.total script files) := by
  have calm := within.calm answers
  have orderly := orderly_run leads steps files choices
  have scripted := scripted_run answers careful leads settles steps files within
  have main := own_eq_solo answers careful leads settles steps files within ended
  have perm := (traced_run leads settles steps files calm).perm
  rw [main] at perm
  have others : ((List.range (starts (task.solo script files)).length).map fun id =>
      own (id + 1) ((new task steps files).record choices)) =
      (starts (task.solo script files)).map fun child => child.solo script files := by
    refine List.ext_getElem (by simp) fun id inside _ => ?_
    rw [List.length_map, List.length_range] at inside
    have isChild : (starts (own 0 ((new task steps files).record choices)))[id]? =
        some (starts (task.solo script files))[id] := by
      rw [main]
      exact List.getElem?_eq_getElem inside
    have same := scripted.same (id + 1) _ isChild
    rw [orderly.ended_of_main ended] at same
    simp only [List.getElem_map, List.getElem_range, ← same]
    exact (List.append_nil _).symm
  rw [others] at perm
  rw [Task.total, List.flatMap_def]
  exact perm

end run

end World

namespace Task

variable {script : Script} {allowed : Tool → Command → Prop} {task next : Task}

theorem Calls.careful (calls : task.Calls allowed) : task.Careful script := by
  induction task with
  | done => trivial
  | change action next => exact calls.elim
  | look next => exact calls.elim
  | spawn child next => exact calls.elim
  | askCancelled next ih => exact fun answer => ih answer (calls answer)
  | call tool command next ih => exact fun outcome => ih outcome (calls.2 outcome)
  | _ =>
      rename_i ih
      exact ih calls

theorem calls_fillEmpty (views : List View) : (fillEmpty views).Calls allowed := by
  induction views with
  | nil => trivial
  | cons view views ih => exact ih

theorem calls_finishRun (verdict : Verdict) (calls : next.Calls allowed) :
    (finishRun verdict next).Calls allowed := by
  have concludes (verdict : Verdict) : (conclude verdict (.awaitAll next)).Calls allowed := by
    apply @holds_conclude fun task => task.Calls allowed
    · exact fun _ _ goesOn => goesOn
    · exact fun _ => calls
  intro cancelledBefore
  cases cancelledBefore <;> exact fun _ => concludes _

theorem calls_dump {tool : Tool} {command : Command} (permitted : allowed tool command)
    (view : View) (format : Dump.Format) (success failure : Text) :
    (dump tool command view format success failure).Calls allowed := by
  refine ⟨permitted, fun outcome => ?_⟩
  apply @holds_of_outcome fun task => task.Calls allowed
  · trivial
  · exact fun _ _ => trivial
  · exact fun _ => trivial

end Task

namespace Pipeline

/-- An effect on the files after which the file of rules can be written if it could before, and
fails to be written with the same error else. -/
def SparesRules (pipeline : Pipeline) (effect : FileTree → FileTree) : Prop :=
  ∀ tree : FileTree,
    let action := FileTree.writeFile (Path.join pipeline.directory Toolchain.rulesFile)
      (Text.utf8 (Toolchain.r8Rules pipeline.settings.keepEverything pipeline.settings.r8Rules))
    ((effect tree).changed action).2 = (tree.changed action).2

section verdicts

variable {verdict : Verdict → Task} (verdicts : ∀ final, (verdict final).Calls fun _ _ => True)

include verdicts

theorem calls_disassembleNative (pipeline : Pipeline) :
    (pipeline.disassembleNative verdict).Calls fun _ _ => True := by
  have stage {tool : Tool} {command : Command} {failure : Text} {goOn : Text → Task}
      (goesOn : ∀ output, (goOn output).Calls fun _ _ => True) :
      (Task.stage tool command failure verdict goOn).Calls fun _ _ => True := by
    refine ⟨trivial, fun outcome => ?_⟩
    apply @Task.holds_of_outcome fun task => task.Calls fun _ _ => True
    · exact verdicts _
    · exact fun output _ => goesOn output
    · exact fun _ => verdicts _
  have advance {message : Text} {next : Task} (goesOn : next.Calls fun _ _ => True) :
      (Task.advance message 1 next).Calls fun _ _ => True := goesOn
  apply stage
  intro _
  apply advance
  apply stage
  intro _
  apply advance
  apply stage
  exact fun _ => verdicts _

/-- Once it has written the file of rules the main thread heeds the files no more; and what other
threads' tools do to them up to there makes no difference to it if they spare that file. -/
theorem tame_disassembleDex (pipeline : Pipeline) (script : Script) (classFiles : List Text) :
    (pipeline.disassembleDex classFiles verdict).Careful script ∧
      ∀ effect, pipeline.SparesRules effect →
        (pipeline.disassembleDex classFiles verdict).Bears effect := by
  have last : (if pipeline.settings.computes .oat then pipeline.disassembleNative verdict
      else verdict (.ok "Ready")).Calls fun _ _ => True := by
    split
    · exact pipeline.calls_disassembleNative verdicts
    · exact verdicts _
  refine ⟨fun error => ?_, fun effect spares => ⟨spares, fun error => ?_⟩⟩
  · cases error with
    | some error => exact (verdicts _).careful
    | none =>
        intro outcome
        apply @Task.holds_of_outcome fun task => task.Careful script
        · exact (verdicts _).careful
        · intro _ _
          change (Task.forView _ _ _ _).Careful script
          unfold Task.forView
          split
          · exact ⟨Task.calls_dump last.blind.bears _ _ _ _, last.careful⟩
          · exact last.careful
        · exact fun _ => (verdicts _).careful
  · cases error with
    | some error => exact (verdicts _).blind
    | none =>
        intro outcome
        apply @Task.holds_of_outcome Task.Blind
        · exact (verdicts _).blind
        · intro _ _
          change (Task.forView _ _ _ _).Blind
          unfold Task.forView
          split <;> exact last.blind
        · exact fun _ => (verdicts _).blind

theorem careful_disassembleThen {pipeline : Pipeline} {script : Script}
    (spares : ∀ command, pipeline.SparesRules (script .javap command).effect) (source : Text) :
    (pipeline.disassembleThen source verdict).Careful script := by
  intro error
  cases error with
  | some error => exact (verdicts _).careful
  | none =>
      intro outcome
      apply @Task.holds_of_outcome fun task => task.Careful script
      · exact (verdicts _).careful
      · intro _ _ tree
        rcases pipeline.tame_disassembleDex verdicts script
          (Toolchain.classFiles tree pipeline.directory) with ⟨careful, bears⟩
        change (Task.forView _ _ _ _).Careful script
        unfold Task.forView
        split
        · exact ⟨Task.calls_dump (bears _ (spares _)) _ _ _ _, careful⟩
        · exact careful
      · exact fun _ => (verdicts _).careful

end verdicts

theorem careful_disassemble {pipeline : Pipeline} {script : Script}
    (spares : ∀ command, pipeline.SparesRules (script .javap command).effect) (source : Text) :
    (pipeline.disassemble source).Careful script :=
  careful_disassembleThen
    (fun final => Task.calls_finishRun final (Task.calls_fillEmpty _)) spares source

end Pipeline

end CompiledViews
