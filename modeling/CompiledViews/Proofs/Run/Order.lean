import CompiledViews.Proofs.Run.Outcome

/-!
# The order of what a run tells

The main path of a run that shows the views tells of its steps one after the other, then what is
logged of a step that has failed, and then the last status. And whichever thread shows a view, its
contents are told before the status that tells of it.
-/

namespace CompiledViews

/-- The messages that tell that a step has succeeded. Where the dump of a view need not be made
there is an empty one in place of the thread that makes it. -/
def Step.messages (settings : Settings) : Step → List Text
  | run .kotlinc => "Kotlin compiled" :: if settings.computes .byteCode = true then [] else [[]]
  | run .dex => (if settings.optimize then "Optimized DEX with R8" else "Compiled DEX with D8") ::
    if settings.computes .dex = true then [] else [[]]
  | run .push => ["Pushed code to device…"]
  | run .dex2oat => ["Disassembling OAT…"]
  | run .oatdump => [View.oat.doneStatus]
  | _ => []

theorem View.doneStatus_injective : Function.Injective View.doneStatus := by
  intro left right
  cases left <;> cases right <;> decide

theorem View.doneStatus_not_ending (view : View) : ¬Ending "Ready" view.doneStatus := by
  unfold Ending
  cases view <;> decide

theorem Tool.failureStatus_ending (tool : Tool) : Ending "Ready" tool.failureStatus := by
  refine .inr ?_
  cases tool <;> decide

/-- The contents of a view have been read from what its dump tool has left behind with success, and
offered. -/
def Announced (view : View) (deeds : List Deed) : Prop :=
  ∃ command output content, .hear view.tool command (.ok ⟨0, output⟩) ∈ deeds ∧
    .offer view content ∈ deeds

theorem Announced.mono {view : View} {deeds more : List Deed} (announced : Announced view deeds)
    (subset : deeds ⊆ more) : Announced view more := by
  rcases announced with ⟨command, output, content, heard, offered⟩
  exact ⟨command, output, content, subset heard, subset offered⟩

/-- Deeds that come after some others, and tell of no view whose contents have not been offered. -/
def Heralds : List Deed → List Deed → Prop
  | _, [] => True
  | known, deed :: deeds =>
    (∀ view : View, deed = .status view.doneStatus → Announced view known) ∧
      Heralds (known ++ [deed]) deeds

section heralds

variable {known deeds more : List Deed}

theorem heralds_append :
    Heralds known (deeds ++ more) ↔ Heralds known deeds ∧ Heralds (known ++ deeds) more := by
  induction deeds generalizing known with
  | nil => simp [Heralds]
  | cons deed deeds ih => simp [Heralds, ih, and_assoc]

/-- Deeds that tell of no view at all. -/
theorem heralds_of_notes (silent : ∀ view : View, .status view.doneStatus ∉ notesOf deeds) :
    Heralds known deeds := by
  induction deeds generalizing known with
  | nil => trivial
  | cons deed deeds ih =>
      refine ⟨fun view same => ?_, ih fun view member => silent view ?_⟩
      · subst same
        exact absurd (List.mem_cons_self ..) (silent view)
      · have later := List.mem_append_right (notesOf [deed]) member
        rwa [← notesOf_append] at later

end heralds

namespace Pipeline

variable {pipeline : Pipeline} {step : Step} {steps : List Step} {deeds main known : List Deed}
  {verdict : Verdict}

theorem ForksFor.notes {view : View} (forks : pipeline.ForksFor view deeds) :
    notesOf deeds =
      (if pipeline.settings.computes view = true then [] else [[]]).map .status := by
  rcases forks with ⟨computed, command, rfl⟩ | ⟨notComputed, rfl⟩
  · rw [if_pos computed]
    rfl
  · rw [if_neg (by simp [notComputed])]
    rfl

theorem Follows.notes (follows : pipeline.Follows step deeds) :
    notesOf deeds = (step.messages pipeline.settings).map .status := by
  cases step with
  | prepare => rcases follows with rfl; rfl
  | writeRules => rcases follows with rfl; rfl
  | run tool =>
      cases tool with
      | kotlinc =>
          rcases follows with ⟨fork, rfl, forks⟩
          exact congrArg (_ :: ·) forks.notes
      | dex =>
          rcases follows with ⟨fork, rfl, forks⟩
          exact congrArg (_ :: ·) forks.notes
      | oatdump => rcases follows with ⟨output, rfl⟩; rfl
      | _ => rcases follows with rfl; rfl

theorem Fails.notes (fails : pipeline.Fails step deeds verdict) :
    notesOf deeds = ((results deeds).filterMap pipeline.complaint?).map (.log · true) := by
  cases step with
  | prepare => rcases fails with ⟨error, rfl, _⟩; rfl
  | writeRules => rcases fails with ⟨error, rfl, _⟩; rfl
  | run tool =>
      rcases fails with ⟨command, outcome, result, isResult, failed, rfl, _⟩
      simp [notesOf, results, List.filterMap_cons, Deed.result?, isResult, Deed.note?, complaint?,
        failed]

/-- The main path tells of the steps that have succeeded, and logs the output of a tool that has
failed. -/
theorem Passes.notes (passes : pipeline.Passes steps main verdict) : ∃ done, done <+: steps ∧
    notesOf main = (done.flatMap (Step.messages pipeline.settings)).map .status ++
      ((results main).filterMap pipeline.complaint?).map (.log · true) := by
  induction passes with
  | all => exact ⟨[], List.nil_prefix, rfl⟩
  | @success step steps own more rest verdict succeeds follows _ ih =>
      rcases ih with ⟨done, isPart, told⟩
      rcases succeeds.tells with ⟨_, _, _, noNote, _, allWon⟩
      rcases follows.silent with ⟨_, noResult, _⟩
      have noComplaint : (results own).filterMap pipeline.complaint? = [] :=
        List.filterMap_eq_nil_iff.2 fun result member => if_pos (allWon result member)
      refine ⟨step :: done, List.cons_prefix_cons.2 ⟨rfl, isPart⟩, ?_⟩
      simp [noNote, follows.notes, told, noResult, noComplaint]
  | failure fails => exact ⟨[], List.nil_prefix, fails.notes⟩

/-- No more than one thing is logged by the main thread. -/
theorem Passes.length_le (passes : pipeline.Passes steps main verdict) :
    ((results main).filterMap pipeline.complaint?).length +
      (errors (notesOf verdict.closing)).length ≤ 1 := by
  induction passes with
  | all => simp [results, Verdict.closing, notesOf, errors, Deed.note?]
  | @success step steps own more rest verdict succeeds follows _ ih =>
      rcases succeeds.tells with ⟨_, _, _, _, _, allWon⟩
      rcases follows.silent with ⟨_, noResult, _⟩
      have noComplaint : (results own).filterMap pipeline.complaint? = [] :=
        List.filterMap_eq_nil_iff.2 fun result member => if_pos (allWon result member)
      simpa [noResult, noComplaint] using ih
  | @failure step steps deeds verdict fails =>
      cases step with
      | prepare => rcases fails with ⟨error, rfl, rfl⟩; exact le_rfl
      | writeRules => rcases fails with ⟨error, rfl, rfl⟩; exact le_rfl
      | run tool =>
          rcases fails with ⟨command, outcome, result, isResult, failed, rfl, rfl⟩
          simp [results, List.filterMap_cons, Deed.result?, isResult, complaint?, failed,
            Verdict.closing, notesOf, errors, Deed.note?]

/-- What is told in the order of the steps: that some first ones of them have succeeded, what is
logged of one that has failed, and the last status. -/
def InStepOrder (settings : Settings) (told : List Note) : Prop :=
  ∃ (done : List Step) (logs : List Text) (last : Text),
    done <+: Pipeline.steps settings ∧ logs.length ≤ 1 ∧ told =
      .status "Compiling and disassembling…" ::
        ((done.flatMap (Step.messages settings)).map Note.status ++ logs.map (Note.log · true) ++
          [Note.status last])

/-- What the main thread tells up to its end is in the order of the steps. -/
theorem inStepOrder_of_does {source : Text} {deeds : List Deed}
    (does : (pipeline.disassemble source).Does deeds) :
    InStepOrder pipeline.settings (notesOf deeds) := by
  rcases does_disassemble does with ⟨main, verdict, passes, rfl⟩
  rcases passes.notes with ⟨done, isPart, told⟩
  have fills :
      notesOf (pipeline.settings.computedViews.map fun view => .offer view .empty) = [] := by
    simp [notesOf, Deed.note?]
  obtain ⟨logs, isLogs, closing⟩ : ∃ logs, errors (notesOf verdict.closing) = logs ∧
      notesOf verdict.closing = logs.map (.log · true) ++ [.status verdict.status] := by
    refine ⟨_, rfl, ?_⟩
    cases verdict with
    | ok status => rfl
    | error error => cases error <;> rfl
  refine ⟨done, (results main).filterMap pipeline.complaint? ++ logs, verdict.status, isPart,
    ?_, ?_⟩
  · rw [List.length_append, ← isLogs]
    exact passes.length_le
  · have begins (message : Text) (rest : List Deed) :
        notesOf (.status message :: rest) = .status message :: notesOf rest := rfl
    have waits (rest : List Deed) : notesOf (.wait :: rest) = notesOf rest := rfl
    rw [begins, notesOf_append, waits, notesOf_append, waits, fills, told, closing]
    simp

theorem messages_not_done {settings : Settings} (other : step ≠ .run .oatdump) (view : View) :
    view.doneStatus ∉ step.messages settings := by
  cases step with
  | run tool =>
      cases tool with
      | kotlinc =>
          simp only [Step.messages]
          split <;> cases view <;> decide
      | dex =>
          simp only [Step.messages]
          split <;> split <;> cases view <;> decide
      | oatdump => exact absurd rfl other
      | push =>
          simp only [Step.messages]
          cases view <;> decide
      | dex2oat =>
          simp only [Step.messages]
          cases view <;> decide
      | _ => exact List.not_mem_nil
  | _ => exact List.not_mem_nil

/-- The main path shows a view before it tells of that. -/
theorem Passes.heralds (passes : pipeline.Passes steps main verdict) : Heralds known main := by
  induction passes generalizing known with
  | all => trivial
  | @success step steps own more rest verdict succeeds follows _ ih =>
      rw [← List.append_assoc, heralds_append]
      refine ⟨?_, ih⟩
      by_cases shows : step = .run .oatdump
      · subst shows
        rcases succeeds with ⟨command, output, rfl⟩
        rcases follows with ⟨other, rfl⟩
        refine ⟨nofun, nofun, nofun, fun view same => ?_, trivial⟩
        rcases View.doneStatus_injective (Deed.status.inj same) with rfl
        exact ⟨command, output, Dump.Format.oatdump.content other, by simp [View.tool], by simp⟩
      · rw [heralds_append]
        refine ⟨heralds_of_notes fun view => ?_, heralds_of_notes fun view member => ?_⟩
        · rw [succeeds.tells.2.2.2.1]
          exact List.not_mem_nil
        · rw [follows.notes] at member
          rcases List.mem_map.1 member with ⟨message, isMessage, same⟩
          rw [Note.status.inj same] at isMessage
          exact messages_not_done shows view isMessage
  | failure fails =>
      refine heralds_of_notes fun view member => ?_
      rw [fails.notes] at member
      simp at member

/-- Empty contents for the views that have got none tell of no view. -/
theorem heralds_offers (known : List Deed) (views : List View) :
    Heralds known (views.map fun view => .offer view .empty) := by
  refine heralds_of_notes fun view => ?_
  simp [notesOf, Deed.note?]

theorem heralds_of_does {source : Text} (does : (pipeline.disassemble source).Does deeds) :
    Heralds [] deeds := by
  rcases does_disassemble does with ⟨main, verdict, passes, rfl⟩
  refine ⟨fun view same => ?_, heralds_append.2 ⟨passes.heralds, nofun, ?_⟩⟩
  · have other : ∀ view : View, view.doneStatus ≠ "Compiling and disassembling…" := by
      intro view
      cases view <;> decide
    exact absurd (Deed.status.inj same).symm (other view)
  · refine heralds_append.2 ⟨?_, nofun, heralds_offers _ _⟩
    cases verdict with
    | ok status => exact ⟨nofun, trivial⟩
    | error error =>
        cases error with
        | cancelled => exact ⟨nofun, trivial⟩
        | scratch path error => exact ⟨nofun, nofun, trivial⟩

/-- A thread that makes a dump shows its view before it tells of that. -/
theorem heralds_of_dumpTask {view : View} {command : Command}
    (does : (view.dumpTask command).Does deeds) : Heralds [] deeds := by
  rcases does_dumpTask does with ⟨outcome, result, isResult, rfl⟩
  refine ⟨nofun, nofun, ?_⟩
  split
  case isTrue success =>
    refine ⟨nofun, fun other same => ?_, trivial⟩
    rcases View.doneStatus_injective (Deed.status.inj same) with rfl
    rcases ok_of_success isResult success with ⟨output, rfl, rfl⟩
    exact ⟨command, output, view.format.content output, by simp, by simp⟩
  case isFalse failed =>
    refine ⟨nofun, fun other same => ?_, trivial⟩
    have isEnding := view.tool.failureStatus_ending
    rw [Deed.status.inj same] at isEnding
    exact absurd isEnding other.doneStatus_not_ending

end Pipeline

/-- No status tells of a view unless contents of it have been told before that are not empty. -/
def Heralded (reports : List Report) : Prop :=
  ∀ before view progress after,
    reports = before ++ Report.status view.doneStatus progress :: after →
    ∃ content, content ≠ .empty ∧ .content view content ∈ before

theorem Heralded.concat {reports : List Report} (heralded : Heralded reports) {report : Report}
    (announced : ∀ view progress, report = .status view.doneStatus progress →
      ∃ content, content ≠ .empty ∧ .content view content ∈ reports) :
    Heralded (reports ++ [report]) := by
  intro before view progress after same
  rcases List.eq_nil_or_concat after with rfl | ⟨init, last, rfl⟩
  · rcases List.append_inj' same rfl with ⟨rfl, isLast⟩
    exact announced view progress (List.cons.inj isLast).1
  · rw [List.concat_eq_append, ← List.cons_append, ← List.append_assoc] at same
    exact heralded before view progress init (List.append_inj' same rfl).1

namespace World

variable {ending : Text → Prop} {surroundings : Surroundings} {view : View} {task : Task}
  {steps : Nat} {files : FileTree} {choices : List Choice} {id : Nat}

/-- What has been reported stays so. -/
theorem reports_prefix (world : World) (choices : List Choice) :
    world.reports <+: (world.run choices).reports := by
  refine holds_of_acts (fun after _ => world.reports <+: after.reports) List.prefix_rfl ?_
    (within_any world choices)
  intro earlier made after _ act known
  cases act with
  | act ready =>
      rw [reports_takeStep]
      exact known.trans (List.prefix_append _ _)
  | _ => exact known

/-- A view for which contents have been offered has got some. -/
theorem mem_delivered_of_offer {content : Content}
    (offered : (id, .offer view content) ∈ (new task steps files).record choices) :
    view ∈ ((new task steps files).run choices).delivered := by
  refine holds_of_acts (fun world record => ∀ id view content, (id, .offer view content) ∈ record →
    view ∈ world.delivered) (by simp) ?_ (within_any _ choices) id view content offered
  intro earlier made after _ act known id view content member
  rcases List.mem_append.1 member with before | now
  · have isKnown := known id view content before
    cases act with
    | act ready =>
        rw [delivered_takeStep]
        exact List.mem_append_right _ isKnown
    | _ => exact isKnown
  · cases act with
    | @act actor task ready =>
        rcases List.mem_map.1 now with ⟨deed, isDeed, same⟩
        rcases Prod.mk.inj same with ⟨rfl, rfl⟩
        rw [delivered_takeStep]
        cases task with
        | deliver shown offer next =>
            have isShown : view = shown ∧ content = offer := by simpa [Task.deeds] using isDeed
            rcases isShown with ⟨rfl, rfl⟩
            simp only [Task.delivers]
            split
            case isTrue isKnown => simpa using isKnown
            case isFalse _ => exact List.mem_append_left _ (List.mem_singleton_self _)
        | call tool command next =>
            simp only [Task.deeds] at isDeed
            split at isDeed <;> simp at isDeed
        | _ => simp [Task.deeds] at isDeed
    | _ => simp at now

/-- When the main thread of a run that is not cancelled is at its end, each dump is shown that a
tool has left behind. -/
theorem shown_of_dumped (leads : task.Leads ending) (settles : task.Settles view)
    (never : .cancel ∉ choices) (ended : ((new task steps files).run choices).hasEnded 0 = true)
    {output : Text} (dumped : Dumped ((new task steps files).exits choices) view output) :
    ∃ content, content ≠ .empty ∧
      (view, content) ∈ contents ((new task steps files).run choices).reports := by
  have orderly := orderly_run leads steps files choices
  rcases (solvent_run steps files choices leads settles never).paid output dumped with
    shown | ⟨id, owes⟩
  · exact shown
  · exact absurd owes (orderly.not_owes_of_ended ended id)

/-- A view of which contents have been offered is shown as its tool has left behind a dump. -/
theorem exists_shown (leads : task.Leads ending) (settles : task.Settles view)
    (within : (new task steps files).Within .calm choices)
    (announced : Announced view (own id ((new task steps files).record choices))) :
    ∃ content, content ≠ .empty ∧
      .content view content ∈ ((new task steps files).run choices).reports := by
  rcases announced with ⟨command, output, offer, heard, offered⟩
  have accounted (choices : List Choice) : ((new task steps files).run choices).Accounted :=
    accounted_run steps files choices
  obtain ⟨content, isTold⟩ :=
    (accounted choices).exists_content (mem_delivered_of_offer (mem_own.1 offered))
  refine ⟨content, ?_, mem_contents_iff.1 isTold⟩
  -- It is told still when the run is at its end, and then the dump is shown.
  rcases (orderly_run leads steps files choices).exists_ended_within Surroundings.exists_calm with
    ⟨rest, restWithin, ended⟩
  rw [← run_append] at ended
  have never := (within_append.2 ⟨within, restWithin⟩).never fun cancels => cancels
  have dumped : Dumped ((new task steps files).exits (choices ++ rest)) view output := by
    rw [Dumped, exits_run, record_append, List.filterMap_append]
    exact List.mem_append_left _ (List.mem_filterMap.2 ⟨_, mem_own.1 heard, rfl⟩)
  rcases shown_of_dumped leads settles never ended dumped with ⟨other, isShown, isOther⟩
  have still :
      (view, content) ∈ contents ((new task steps files).run (choices ++ rest)).reports := by
    rw [run_append]
    have prefix_ := reports_prefix ((new task steps files).run choices) rest
    exact (prefix_.filterMap _).subset isTold
  rw [(accounted _).content_unique still isOther]
  exact isShown

/-- The message of a last status is one that a run may end with. -/
theorem Orderly.ending_of_skipToEnd {world : World} (orderly : world.Orderly ending)
    {message : Text} {next : Task}
    (ready : world.phase id = .ready (.skipToEnd message next)) : ending message := by
  obtain ⟨rfl, _, _⟩ := orderly.fills_of_skipToEnd ready
  cases orderly.stage with
  | closes main alone unfilled =>
      rw [ready] at main
      exact main.1
  | leads main waited unfilled =>
      rw [ready] at main
      exact main.elim
  | fills main alone concluded =>
      rw [ready] at main
      exact main.elim

/-- What a thread has done of a run that shows the views tells of no view too early. -/
theorem heralds_own {pipeline : Pipeline} {source : Text} {rest : List Deed}
    (within : (pipeline.showing source files).Within .calm choices) {origin : Task}
    (found : (pipeline.disassemble source ::
      starts (own 0 ((pipeline.showing source files).record choices)))[id]? = some origin)
    (does : origin.Does rest) : Heralds [] rest := by
  cases id with
  | zero =>
      obtain rfl : pipeline.disassemble source = origin := by simpa using found
      exact Pipeline.heralds_of_does does
  | succ id =>
      rcases exists_mainCourse within with ⟨deeds, course, isPart⟩
      rw [List.getElem?_cons_succ] at found
      rcases course.forksGated isPart (List.mem_of_getElem? found) with
        ⟨tool, _, view, _, command, rfl⟩
      exact Pipeline.heralds_of_dumpTask does

theorem heralded_run {pipeline : Pipeline} {source : Text}
    (within : (pipeline.showing source files).Within .calm choices) :
    Heralded ((pipeline.showing source files).run choices).reports := by
  have leads := pipeline.leads_disassemble source
  refine holds_of_acts (fun world _ => Heralded world.reports) ?_ ?_ within
  · intro before view progress after same
    cases before <;> cases same
  intro earlier made after earlierWithin act heralded
  have quiet := quiet_of_calm leads (pipeline.settles_disassemble source .byteCode)
    disassemblySteps files earlierWithin
  cases act with
  | @act actor task ready =>
      rw [reports_takeStep]
      -- The thread that tells of a view goes on somehow, and on its whole course heralds it.
      have announced (view : View) (tells : ∀ rest, task.Does rest →
          ∃ later, rest = .status view.doneStatus :: later) :
          ∃ content, content ≠ .empty ∧ .content view content ∈
            ((pipeline.showing source files).run earlier).reports := by
        have traced := traced_run leads (pipeline.settles_disassemble source .byteCode)
          disassemblySteps files earlierWithin
        have exists_ := lt_of_phase ready (by simp)
        rw [traced.length, ← List.length_cons] at exists_
        have found := List.getElem?_eq_getElem exists_
        rcases quiet.completes actor with ⟨rest, does⟩
        have whole := traced.does actor _ found rest does
        rw [ready] at does
        rcases tells rest does with ⟨later, rfl⟩
        have heralds := (heralds_append.1 (heralds_own earlierWithin found whole)).2.1 view rfl
        exact exists_shown leads (pipeline.settles_disassemble source view) earlierWithin heralds
      cases task with
      | update message next =>
          refine heralded.concat fun view progress same => announced view fun rest does => ?_
          rcases does with ⟨later, rfl, _⟩
          rw [(Report.status.inj same).1]
          exact ⟨later, rfl⟩
      | advance message count next =>
          refine heralded.concat fun view progress same => announced view fun rest does => ?_
          rcases does with ⟨later, rfl, _⟩
          rw [(Report.status.inj same).1]
          exact ⟨later, rfl⟩
      | skipToEnd message next =>
          refine heralded.concat fun view progress same => ?_
          have isEnding := quiet.orderly.ending_of_skipToEnd ready
          rw [(Report.status.inj same).1] at isEnding
          exact absurd isEnding view.doneStatus_not_ending
      | log text isError next => exact heralded.concat fun _ _ same => by cases same
      | deliver view content next =>
          simp only [Task.reported]
          split
          · simpa using heralded
          · exact heralded.concat fun _ _ same => by cases same
      | _ => simpa [Task.reported] using heralded
  | _ => exact heralded

end World

end CompiledViews
