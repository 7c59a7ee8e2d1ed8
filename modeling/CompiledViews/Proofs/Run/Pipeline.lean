import CompiledViews.Proofs.Run.Cost
import CompiledViews.Proofs.Run.Course

/-!
# The tasks of the pipeline

In both runs of the pipeline the main thread leads, closes and fills, with a last status that tells
of success or of an error. What a run may cost is the price of each of its tools once, and of one
step for each report that advances it.
-/

namespace CompiledViews

/-- What a verdict comes to where the run may have been cancelled while it was waited. -/
def Verdict.final (cancelled : Bool) : Verdict → Verdict
  | .ok status => if cancelled then .error .cancelled else .ok status
  | .error error => .error error

theorem Verdict.Fits.final {success : Text} {verdict : Verdict} (fits : verdict.Fits success)
    (cancelled : Bool) : (verdict.final cancelled).Fits success := by
  cases verdict with
  | ok status =>
      cases cancelled
      · exact fits
      · trivial
  | error error => trivial

namespace Task

variable {success : Text} {next : Task}

/-- The end of a run from the point where threads are waited for. -/
def finale (verdict : Verdict) (next : Task) : Task :=
  awaitAll (askCancelled fun cancelled => conclude (verdict.final cancelled) (awaitAll next))

theorem finishRun_eq (verdict : Verdict) (next : Task) :
    finishRun verdict next = askCancelled fun cancelled =>
      if cancelled then abortAll (finale verdict next) else finale verdict next := by
  cases verdict <;> rfl

theorem closes_conclude {verdict : Verdict} (fits : verdict.Fits success) (fills : next.Fills) :
    (conclude verdict next).Closes (Ending success) := by
  cases verdict with
  | ok status => exact ⟨fits, fills⟩
  | error error =>
      cases error with
      | cancelled => exact ⟨.inr (by decide), fills⟩
      | scratch path error => exact ⟨.inr (by simp [Text.startsWith]), fills⟩

theorem leads_finishRun {verdict : Verdict} (fits : verdict.Fits success) (fills : next.Fills) :
    (finishRun verdict next).Leads (Ending success) := by
  rw [finishRun_eq]
  have leads : (finale verdict next).Leads (Ending success) := fun cancelled =>
    closes_conclude (fits.final cancelled) fills
  intro cancelled
  cases cancelled <;> exact leads

theorem forked_dump (tool : Tool) (command : Command) (view : View) (format : Dump.Format)
    (success failure : Text) : (dump tool command view format success failure).Forked := by
  intro outcome
  apply holds_of_outcome outcome
  · trivial
  · exact fun output _ => ⟨format.content_ne_empty output, trivial⟩
  · exact fun result => trivial

theorem fills_done : done.Fills := trivial

theorem fills_fillEmpty (views : List View) : (fillEmpty views).Fills := by
  induction views with
  | nil => trivial
  | cons view views ih => exact ⟨rfl, ih⟩

end Task

namespace Pipeline

section leads

variable (pipeline : Pipeline) {verdict : Verdict → Task}

theorem closed_leads {success : Text}
    (verdicts : ∀ final : Verdict, final.Fits success → (verdict final).Leads (Ending success)) :
    pipeline.Closed success verdict (Task.Leads (Ending success)) where
  verdicts fits := verdicts _ fits
  log goesOn := goesOn
  advance goesOn := goesOn
  change goesOn := goesOn
  call _ _ goesOn := goesOn

theorem closedWithViews_leads
    (verdicts : ∀ final : Verdict, final.Fits "Ready" → (verdict final).Leads (Ending "Ready")) :
    pipeline.ClosedWithViews verdict (Task.Leads (Ending "Ready")) where
  toClosed := closed_leads pipeline verdicts
  look goesOn := goesOn
  dump view _ _ _ _ _ _ goesOn := ⟨Task.forked_dump _ _ view _ _ _, goesOn⟩
  shown view command message failure next computed _ fits goesOn := by
    intro outcome
    apply Task.holds_of_outcome outcome
    · exact verdicts _ trivial
    · exact fun output _ => ⟨view.format.content_ne_empty output, goesOn⟩
    · exact fun result => verdicts (.ok failure) fits

end leads

theorem leads_disassemble (pipeline : Pipeline) (source : Text) :
    (pipeline.disassemble source).Leads (Ending "Ready") :=
  (closedWithViews_leads pipeline fun _ fits =>
    Task.leads_finishRun fits (Task.fills_fillEmpty _)).disassembleThen source

theorem leads_execute (pipeline : Pipeline) (source : Text) :
    (pipeline.execute source).Leads (Ending "Run completed") :=
  (closed_leads pipeline fun _ fits =>
    Task.leads_finishRun fits Task.fills_done).executeThen source

end Pipeline

namespace Task

variable {price : Price} {next : Task} {budget : Nat}

theorem cost_advance_le {message : Text} (count : Nat) (goesOn : next.cost price ≤ budget) :
    (advance message count next).cost price ≤ (budget + price.advance count : Nat) := by
  rw [Nat.cast_add]
  exact add_le_add_left goesOn _

theorem cost_call_le {tool : Tool} {command : Command} {goOn : Outcome → Task}
    (goesOn : ∀ outcome, (goOn outcome).cost price ≤ budget) :
    (call tool command goOn).cost price ≤ (budget + price.call tool : Nat) := by
  rw [Nat.cast_add]
  exact add_le_add_left (iSup_le goesOn) _

theorem cost_stage_le {tool : Tool} {command : Command} {failure : Text} {verdict : Verdict → Task}
    {goOn : Text → Task} (verdicts : ∀ final, (verdict final).cost price = 0)
    (goesOn : ∀ output, (goOn output).cost price ≤ budget) :
    (stage tool command failure verdict goOn).cost price ≤ (budget + price.call tool : Nat) := by
  apply cost_call_le
  intro outcome
  split
  · exact (verdicts _).le.trans (zero_le)
  · split
    · exact goesOn _
    · exact (verdicts _).le.trans (zero_le)

theorem cost_dump_le (tool : Tool) (command : Command) (view : View) (format : Dump.Format)
    (success failure : Text) : (dump tool command view format success failure).cost price ≤
      (price.advance 1 + price.call tool : Nat) := by
  apply cost_call_le
  intro outcome
  have advanced (message : Text) :
      (advance message 1 done).cost price ≤ (0 + price.advance 1 : Nat) :=
    cost_advance_le 1 (by simp [cost])
  simp only [Nat.zero_add] at advanced
  split
  · exact zero_le
  · split
    · exact advanced success
    · exact advanced failure

theorem cost_forView_le {settings : Settings} {view : View} {thread : Task} {extra : Nat}
    (threadCost : thread.cost price ≤ (price.advance 1 + extra : Nat))
    (goesOn : next.cost price ≤ budget) :
    (forView settings view thread next).cost price ≤
      (budget + (price.advance 1 + extra) : Nat) := by
  unfold forView
  split
  · rw [Nat.cast_add]
    exact add_le_add goesOn threadCost
  · apply (cost_advance_le 1 goesOn).trans
    exact_mod_cast Nat.add_le_add_left (Nat.le_add_right _ _) budget

theorem cost_conclude (verdict : Verdict) (nothing : next.cost price = 0) :
    (conclude verdict next).cost price = 0 := by
  cases verdict with
  | ok status => exact nothing
  | error error => cases error <;> exact nothing

theorem cost_finishRun (verdict : Verdict) (nothing : next.cost price = 0) :
    (finishRun verdict next).cost price = 0 := by
  have final : (finale verdict next).cost price = 0 := by
    simp [finale, cost, cost_conclude, nothing]
  rw [finishRun_eq]
  refine le_antisymm (iSup_le fun cancelled => ?_) zero_le
  cases cancelled <;> exact final.le

end Task

namespace Pipeline

section cost

variable {price : Price} {verdict : Verdict → Task} (pipeline : Pipeline) (source : Text)
  (verdicts : ∀ final, (verdict final).cost price = 0)

include verdicts

theorem cost_compile_le {next : Task} {budget : Nat} (goesOn : next.cost price ≤ budget) :
    (pipeline.compile source verdict next).cost price ≤ (budget + price.call .kotlinc : Nat) := by
  apply iSup_le
  intro error
  cases error with
  | some error => exact (verdicts _).le.trans (zero_le)
  | none =>
      apply Task.cost_call_le
      intro outcome
      split
      · exact (verdicts _).le.trans (zero_le)
      · split
        · exact goesOn
        · exact (verdicts _).le.trans (zero_le)

theorem cost_disassembleNative_le : (pipeline.disassembleNative verdict).cost price ≤
    (price.advance 1 + price.call .oatdump + price.advance 1 + price.call .dex2oat +
      price.advance 1 + price.call .push : Nat) := by
  apply Task.cost_stage_le verdicts
  intro _
  refine Task.cost_advance_le 1 (Task.cost_stage_le verdicts fun _ => ?_)
  refine Task.cost_advance_le 1 (Task.cost_stage_le verdicts fun _ => ?_)
  simp [Task.cost, verdicts]

theorem cost_disassembleDex_le (classFiles : List Text) :
    (pipeline.disassembleDex classFiles verdict).cost price ≤
      (price.advance 1 + price.call .oatdump + price.advance 1 + price.call .dex2oat +
        price.advance 1 + price.call .push + (price.advance 1 + price.call .dexdump) +
        price.advance 1 + price.call .dex : Nat) := by
  apply iSup_le
  intro error
  cases error with
  | some error => exact (verdicts _).le.trans zero_le
  | none =>
      refine Task.cost_stage_le verdicts fun _ => Task.cost_advance_le 1 ?_
      apply Task.cost_forView_le (Task.cost_dump_le ..)
      split
      · exact pipeline.cost_disassembleNative_le verdicts
      · exact (verdicts _).le.trans zero_le

theorem cost_disassembleThen_le : (pipeline.disassembleThen source verdict).cost price ≤
    (price.advance 1 + price.call .oatdump + price.advance 1 + price.call .dex2oat +
      price.advance 1 + price.call .push + (price.advance 1 + price.call .dexdump) +
      price.advance 1 + price.call .dex + (price.advance 1 + price.call .javap) +
      price.advance 1 + price.call .kotlinc : Nat) := by
  refine pipeline.cost_compile_le source verdicts (Task.cost_advance_le 1 ?_)
  apply iSup_le
  intro tree
  exact Task.cost_forView_le (Task.cost_dump_le ..) (pipeline.cost_disassembleDex_le verdicts _)

theorem cost_executeThen_le : (pipeline.executeThen source verdict).cost price ≤
    (price.call .java + price.advance 1 + price.call .kotlinc : Nat) := by
  refine pipeline.cost_compile_le source verdicts (Task.cost_advance_le 1 ?_)
  rw [← Nat.zero_add (price.call .java)]
  apply Task.cost_call_le
  intro outcome
  split
  · exact (verdicts _).le.trans zero_le
  · exact (verdicts _).le.trans zero_le

end cost

/-- A run that shows the views costs at most seven steps, and each of seven tools once. -/
theorem cost_disassemble_le (price : Price) (pipeline : Pipeline) (source : Text) :
    (pipeline.disassemble source).cost price ≤
      (7 * price.advance 1 + (price.call .kotlinc + price.call .javap + price.call .dex +
        price.call .dexdump + price.call .push + price.call .dex2oat + price.call .oatdump) :
          Nat) := by
  have nothing (verdict : Verdict) : (Task.finishRun verdict
      (Task.fillEmpty pipeline.settings.computedViews)).cost price = 0 :=
    Task.cost_finishRun verdict ((Task.fills_fillEmpty _).cost_eq_zero price)
  apply le_trans (pipeline.cost_disassembleThen_le source nothing)
  exact_mod_cast Nat.le_of_eq (by omega)

/-- A run that runs the program costs at most one step, and each of two tools once. -/
theorem cost_execute_le (price : Price) (pipeline : Pipeline) (source : Text) :
    (pipeline.execute source).cost price ≤
      (price.advance 1 + (price.call .kotlinc + price.call .java) : Nat) := by
  have nothing (verdict : Verdict) : (Task.finishRun verdict .done).cost price = 0 :=
    Task.cost_finishRun verdict rfl
  apply le_trans (pipeline.cost_executeThen_le source nothing)
  exact_mod_cast Nat.le_of_eq (by omega)

end Pipeline

end CompiledViews
