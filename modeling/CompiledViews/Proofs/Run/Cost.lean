import CompiledViews.Proofs.Run.Stages
import Mathlib.Data.ENat.Lattice
import Mathlib.Order.CompletePartialOrder

/-!
# What a run may cost

Steps of the progress and runs of tools have a price. A task costs at most what the dearest of its
courses costs, with all threads that it starts. As a run goes on, what has been paid and what its
threads may still cost never add up to more than the task cost that the run began with.
-/

namespace CompiledViews

/-- The tasks that a step of a task starts. -/
def Task.births : Task → List Task
  | spawn child _ => [child]
  | _ => []

namespace World

section total

variable {α : Type} [AddCommMonoid α] (weight : Phase → α) {world after : World} {id : Nat}

/-- The weights of the phases of all threads, added up. -/
def total (world : World) : α := (world.threads.map fun thread => weight thread.phase).sum

theorem total_congr (length : after.threads.length = world.threads.length)
    (phases : ∀ id, after.phase id = world.phase id) :
    after.total weight = world.total weight := by
  refine congrArg List.sum (List.ext_getElem (by simp [length]) fun id inAfter inWorld => ?_)
  have same := phases id
  simp only [List.length_map] at inAfter inWorld
  simp only [phase, List.getElem?_eq_getElem inAfter, List.getElem?_eq_getElem inWorld] at same
  simp [same]

/-- A step changes the weight of its thread, and adds those of the threads that it starts. -/
theorem total_takeStep {task : Task} (ready : world.phase id = .ready task) :
    (world.takeStep id task).total weight = (world.setPhase id (task.after world)).total weight +
      (task.births.map fun child => weight (.ready child)).sum := by
  have exists_ := lt_of_phase ready (by simp)
  have phases (noChild : ∀ child next, task ≠ .spawn child next) (other : Nat) :
      (world.takeStep id task).phase other =
        (world.setPhase id (task.after world)).phase other := by
    rcases phase_takeStep exists_ task other with ⟨different, same⟩ | ⟨rfl, moved⟩ | ⟨_, spawned⟩
    · rw [same, phase_setPhase_of_ne different]
    · rw [moved, phase_setPhase_self exists_]
    · rcases spawned with ⟨child, next, isSpawn, _⟩
      exact absurd isSpawn (noChild child next)
  cases task with
  | spawn child next => simp [total, takeStep, Task.after, Task.births, Thread.new]
  | call tool command next =>
      simp only [Task.births, List.map_nil, List.sum_nil, add_zero]
      refine total_congr weight ?_ (phases (by simp))
      unfold takeStep
      dsimp only
      split <;> simp
  | _ =>
      simp only [Task.births, List.map_nil, List.sum_nil, add_zero]
      refine total_congr weight ?_ (phases (by simp))
      simp [takeStep, reportStatus, report]

variable {weight} [PartialOrder α] [IsOrderedAddMonoid α]

theorem sum_map_modify_add_le {Item : Type} {weight : Item → α} {change : Item → Item}
    {items : List Item} {index : Nat} {item : Item} (found : items[index]? = some item) {paid : α}
    (lighter : weight (change item) + paid ≤ weight item) :
    ((items.modify index change).map weight).sum + paid ≤ (items.map weight).sum := by
  induction items generalizing index with
  | nil => simp at found
  | cons first items ih =>
      cases index with
      | zero =>
          obtain rfl : first = item := by simpa using found
          simp only [List.modify_zero_cons, List.map_cons, List.sum_cons]
          rw [add_right_comm]
          gcongr
      | succ index =>
          simp only [List.modify_succ_cons, List.map_cons, List.sum_cons, add_assoc]
          gcongr
          exact ih (by simpa using found)

/-- What one thread gets lighter by all of them do. -/
theorem total_setPhase_add_le {old new : Phase} (isPhase : world.phase id = old)
    (goesOn : old ≠ .ended) {paid : α} (lighter : weight new + paid ≤ weight old) :
    (world.setPhase id new).total weight + paid ≤ world.total weight := by
  rcases exists_of_phase isPhase goesOn with ⟨thread, found, rfl⟩
  exact sum_map_modify_add_le found lighter

end total

end World

/-- What is to be paid: for a report that advances the progress by a count, and for a tool. -/
structure Price where
  advance : Nat → Nat
  call : Tool → Nat

/-- What has been paid for tools that have exited. -/
def Price.paid (price : Price) (exits : List (Tool × ToolResult)) : Nat :=
  (exits.map fun exit => price.call exit.1).sum

@[simp]
theorem Price.paid_nil (price : Price) : price.paid [] = 0 := rfl

@[simp]
theorem Price.paid_append (price : Price) (earlier new : List (Tool × ToolResult)) :
    price.paid (earlier ++ new) = price.paid earlier + price.paid new := by
  simp [paid]

/-- The most that a task may cost. -/
noncomputable def Task.cost (price : Price) : Task → ℕ∞
  | done => 0
  | update _ next | skipToEnd _ next | log _ _ next | deliver _ _ next | abortAll next
  | awaitAll next | pause next => next.cost price
  | advance _ count next => next.cost price + price.advance count
  | spawn child next => next.cost price + child.cost price
  | askCancelled next => ⨆ answer, (next answer).cost price
  | call tool _ next => (⨆ outcome, (next outcome).cost price) + price.call tool
  | change _ next => ⨆ error, (next error).cost price
  | look next => ⨆ tree, (next tree).cost price

/-- What is paid for the next step of a task. -/
def Task.due (price : Price) : Task → Nat
  | advance _ count _ => price.advance count
  | _ => 0

/-- The most that a thread in a phase may still cost. A tool is paid for when it ends. -/
noncomputable def Phase.cost (price : Price) : Phase → ℕ∞
  | ready task => task.cost price
  | inFlight tool _ next => (⨆ outcome, (next outcome).cost price) + price.call tool
  | awaiting _ next => next.cost price
  | ended => 0

/-- What the threads that a step of a task starts may cost. -/
noncomputable def Task.childCost (price : Price) : Task → ℕ∞
  | spawn child _ => child.cost price
  | _ => 0

/-- A step of a task pays from what the task may cost. -/
theorem Task.cost_after_add_le (price : Price) (world : World) (task : Task) :
    (task.after world).cost price + task.childCost price + task.due price ≤ task.cost price := by
  cases task with
  | call tool command next =>
      by_cases cancelled : world.cancelled
      · have branch := le_iSup (fun outcome => (next outcome).cost price) (.error .cancelled)
        simpa [after, cancelled, Phase.cost, childCost, due, Task.cost] using le_add_right branch
      · simp [after, cancelled, Phase.cost, childCost, due, Task.cost]
  | askCancelled next =>
      simpa [after, Phase.cost, childCost, due, Task.cost] using
        le_iSup (fun answer => (next answer).cost price) world.cancelled
  | change action next =>
      simpa [after, Phase.cost, childCost, due, Task.cost] using
        le_iSup (fun error => (next error).cost price) (world.change action).2
  | look next =>
      simpa [after, Phase.cost, childCost, due, Task.cost] using
        le_iSup (fun tree => (next tree).cost price) world.files
  | _ => simp [after, Phase.cost, childCost, due, Task.cost]

theorem Task.Fills.cost_eq_zero (price : Price) {task : Task} (fills : task.Fills) :
    task.cost price = 0 := by
  induction task with
  | deliver view content next ih => exact ih fills.2
  | awaitAll next ih => exact ih fills
  | done => rfl
  | _ => exact fills.elim

theorem Phase.Fills.cost_eq_zero (price : Price) {phase : Phase} (fills : phase.Fills) :
    phase.cost price = 0 := by
  cases phase with
  | ready task => exact Task.Fills.cost_eq_zero price fills
  | awaiting others next => exact Task.Fills.cost_eq_zero price fills
  | inFlight tool command next => exact fills.elim
  | ended => rfl

namespace World

/-- The most that the threads of a world may still cost. -/
noncomputable def cost (price : Price) (world : World) : ℕ∞ :=
  (world.threads.map fun thread => thread.phase.cost price).sum

variable {price : Price} {world : World} {id : Nat}

/-- A thread pays from what it may cost. -/
theorem cost_setPhase_add_le {old new : Phase} (isPhase : world.phase id = old)
    (goesOn : old ≠ .ended) {paid : ℕ∞} (cheaper : new.cost price + paid ≤ old.cost price) :
    (world.setPhase id new).cost price + paid ≤ world.cost price :=
  total_setPhase_add_le isPhase goesOn cheaper

theorem cost_takeStep {task : Task} (ready : world.phase id = .ready task) :
    (world.takeStep id task).cost price =
      (world.setPhase id (task.after world)).cost price + task.childCost price := by
  refine (total_takeStep (Phase.cost price) ready).trans (congrArg (_ + ·) ?_)
  cases task <;> simp [Task.births, Task.childCost, Phase.cost]

/-- The threads of a world pay for a step from what they may cost. -/
theorem cost_takeStep_add_le (price : Price) {task : Task} (ready : world.phase id = .ready task) :
    (world.takeStep id task).cost price + task.due price ≤ world.cost price := by
  have cheaper := task.cost_after_add_le price world
  rw [add_assoc] at cheaper
  have paid := cost_setPhase_add_le ready (by simp) cheaper
  rwa [cost_takeStep ready, add_assoc]

/-- A move pays for the tools that exit by it from what the threads may cost. -/
theorem Move.cost_add_le (price : Price) {new : List (Tool × ToolResult)} {after : World}
    (move : world.Move new after) : after.cost price + price.paid new ≤ world.cost price := by
  have unpaid {id : Nat} {old changed : Phase} (isPhase : world.phase id = old)
      (goesOn : old ≠ .ended) (cheaper : changed.cost price ≤ old.cost price) :
      (world.setPhase id changed).cost price + 0 ≤ world.cost price :=
    cost_setPhase_add_le isPhase goesOn (by simpa using cheaper)
  cases move with
  | rest => simp
  | cancel => simp [cost]
  | stop aborted goesOn => exact unpaid rfl goesOn (by simp [Phase.cost])
  | act ready => simpa using le_self_add.trans (cost_takeStep_add_le price ready)
  | collect waits => exact unpaid waits (by simp) (by simp [Phase.cost])
  | resume waits none => exact unpaid waits (by simp) (by simp [Phase.cost])
  | skip waits ended => exact unpaid waits (by simp) (by simp [Phase.cost])
  | @fail id tool command next flies error files =>
      refine unpaid flies (by simp) (le_add_right ?_)
      exact le_iSup (fun outcome => (next outcome).cost price) (.error error)
  | @exit id tool command next flies result files uncancelled =>
      apply cost_setPhase_add_le flies (by simp)
      simp only [Price.paid, List.map_cons, List.map_nil, List.sum_cons, List.sum_nil, add_zero]
      exact add_le_add_left (le_iSup (fun outcome => (next outcome).cost price) (.ok result)) _

/-- What is paid for the tools that exit is within what the task of the run may cost. -/
theorem paid_le_cost (price : Price) (task : Task) (steps : Nat) (files : FileTree)
    (choices : List Choice) :
    (price.paid ((new task steps files).exits choices) : ℕ∞) ≤ task.cost price := by
  suffices ((new task steps files).run choices).cost price +
      price.paid ((new task steps files).exits choices) ≤ task.cost price from
    le_add_self.trans this
  refine holds_of_moves (fun world exits => world.cost price + price.paid exits ≤ task.cost price)
    ?_ ?_ choices
  · simp [cost, new, Thread.new, Phase.cost]
  · intro world after earlier new move within
    calc after.cost price + price.paid (earlier ++ new)
        = after.cost price + price.paid new + price.paid earlier := by
          rw [Price.paid_append, Nat.cast_add, add_comm (price.paid earlier : ℕ∞), add_assoc]
      _ ≤ world.cost price + price.paid earlier := by gcongr; exact move.cost_add_le price
      _ ≤ task.cost price := within

/-- Nothing is left to be paid after the last status. -/
theorem cost_eq_zero (price : Price) (alone : world.Alone) (fills : (world.phase 0).Fills) :
    world.cost price = 0 := by
  apply List.sum_eq_zero
  intro cost isCost
  rcases List.mem_map.1 isCost with ⟨thread, member, rfl⟩
  rcases List.mem_iff_getElem?.1 member with ⟨id, found⟩
  have isPhase : world.phase id = thread.phase := by simp [phase, found]
  rw [← isPhase]
  by_cases isMain : id = 0
  · exact (isMain ▸ fills).cost_eq_zero price
  · rw [alone id isMain]
    rfl

end World

end CompiledViews
