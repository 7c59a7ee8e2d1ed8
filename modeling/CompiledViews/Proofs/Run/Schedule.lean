import CompiledViews.Proofs.Run.Move
import CompiledViews.Run.Timeline

/-!
# Timelines make choices

A run in time is one of the runs that are left open: its turns, the ends of its tools, and its
cancellation are choices that are made one after the other. So what holds whatever is chosen holds
of it, and it is cancelled only if it is given a time for that.
-/

namespace CompiledViews

namespace World

/-- Choices lead from a world to another, and only a run that may be cancelled is cancelled by
them. -/
def UnfoldsTo (cancellable : Prop) (world after : World) : Prop :=
  ∃ choices, world.run choices = after ∧ (Choice.cancel ∈ choices → cancellable)

variable {cancellable : Prop} {world middle after : World}

theorem UnfoldsTo.refl (world : World) : world.UnfoldsTo cancellable world :=
  ⟨[], rfl, fun member => absurd member List.not_mem_nil⟩

theorem UnfoldsTo.trans (first : world.UnfoldsTo cancellable middle)
    (second : middle.UnfoldsTo cancellable after) : world.UnfoldsTo cancellable after := by
  rcases first with ⟨choices, rfl, allowed⟩
  rcases second with ⟨more, rfl, moreAllowed⟩
  refine ⟨choices ++ more, by simp [run], fun member => ?_⟩
  exact (List.mem_append.1 member).elim allowed moreAllowed

theorem unfoldsTo_step (choice : Choice) (allowed : choice = .cancel → cancellable) :
    world.UnfoldsTo cancellable (world.step choice) :=
  ⟨[choice], rfl, fun member => allowed (List.mem_singleton.1 member).symm⟩

theorem unfoldsTo_settleFrom (limit : Nat) (world : World) (active : Nat) (queue : List Nat) :
    world.UnfoldsTo cancellable (settleFrom limit world active queue) := by
  fun_induction settleFrom limit world active queue with
  | case1 world active queue => exact .refl _
  | case2 limit world active queue next taken ih =>
      have turned : world.UnfoldsTo cancellable (world.step (.turn active)) :=
        unfoldsTo_step (.turn active) (by simp)
      rw [show world.step (.turn active) = next by simp [step, taken]] at turned
      exact turned.trans ih
  | case3 limit world active queue none ended => exact .refl world
  | case4 limit world active none goesOn id rest ih => exact ih
  | case5 limit world none goesOn => exact .refl world
  | case6 limit world active none goesOn isFork ih => exact ih

theorem unfoldsTo_settle (world : World) : world.UnfoldsTo cancellable world.settle :=
  unfoldsTo_settleFrom ..

end World

namespace Timeline

variable {cancellable : Prop} (tools : Tools) (timeline : Timeline)

theorem unfoldsTo_land (id time : Nat) (landing : Landing) :
    timeline.world.UnfoldsTo cancellable (timeline.land id time landing).world :=
  .trans (World.unfoldsTo_step (.land id landing) (by simp)) (World.unfoldsTo_settle _)

theorem unfoldsTo_cancel (allowed : cancellable) (time : Nat) :
    timeline.world.UnfoldsTo cancellable (timeline.cancel time).world := by
  have landed (ends : List (Nat × Nat × Landing)) (world : World) : world.UnfoldsTo cancellable
      (ends.foldl (fun world entry => world.step (.land entry.1 entry.2.2)) world) := by
    induction ends generalizing world with
    | nil => exact .refl world
    | cons entry ends ih =>
        exact .trans (World.unfoldsTo_step (.land entry.1 entry.2.2) (by simp)) (ih _)
  exact .trans (World.unfoldsTo_step .cancel fun _ => allowed)
    (.trans (landed timeline.ends _) (World.unfoldsTo_settle _))

theorem unfoldsTo_advance? {next : Timeline} (advanced : timeline.advance? tools = some next)
    (allowed : timeline.cancelAt ≠ none → cancellable) :
    timeline.world.UnfoldsTo cancellable next.world ∧ (next.cancelAt ≠ none → cancellable) := by
  unfold advance? at advanced
  split at advanced
  · cases advanced
  · rename_i id time landing first
    rcases Option.some.inj advanced with rfl
    cases cancelAt : timeline.cancelAt with
    | none =>
        exact ⟨timeline.unfoldsTo_land id time landing, allowed⟩
    | some instant =>
        have permitted : cancellable := allowed (by simp [cancelAt])
        refine ⟨?_, fun _ => permitted⟩
        dsimp only [schedule]
        split
        · exact timeline.unfoldsTo_cancel permitted instant
        · exact timeline.unfoldsTo_land id time landing

theorem unfoldsTo_advanceAll (limit : Nat) (allowed : timeline.cancelAt ≠ none → cancellable) :
    timeline.world.UnfoldsTo cancellable (advanceAll tools limit timeline).world := by
  induction limit generalizing timeline with
  | zero => exact .refl _
  | succ limit ih =>
      unfold advanceAll
      cases advanced : timeline.advance? tools with
      | none => exact .refl _
      | some next =>
          rcases timeline.unfoldsTo_advance? tools advanced allowed with ⟨unfolds, stillAllowed⟩
          exact unfolds.trans (ih next stillAllowed)

/-- The end of a run in time is reached by choices, among which the run is cancelled only if it has
been given a time for that. -/
theorem exists_run_eq_finish (cancelAt : Option Nat) (world : World) :
    ∃ choices, world.run choices = finish tools cancelAt world ∧
      (World.Choice.cancel ∈ choices → cancelAt ≠ none) := by
  suffices world.UnfoldsTo (cancelAt ≠ none) (finish tools cancelAt world) from this
  unfold finish
  refine .trans ?_ (unfoldsTo_advanceAll tools _ maxLandings ?_)
  · refine .trans ?_ (World.unfoldsTo_settle _)
    split
    case isTrue atOnce => exact World.unfoldsTo_step .cancel fun _ => by simp [atOnce]
    case isFalse _ => exact .refl world
  · dsimp only [schedule]
    split
    case isTrue _ => exact fun given => absurd rfl given
    case isFalse _ => exact id

end Timeline

end CompiledViews
