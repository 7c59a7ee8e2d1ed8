import CompiledViews.Dump.Machine

/-!
# Invariants of reading machines

What holds of the first scope and is preserved by every line holds of every scope, and what every
line and the end of the dump see to when they complete a class holds of every class that is read.
-/

namespace CompiledViews.Dump

/-- A computation with two parts succeeds when both do. -/
theorem bind_eq_ok_iff {ε α β : Type} {first : Except ε α} {next : α → Except ε β} {result : β} :
    (first >>= next) = .ok result ↔ ∃ value, first = .ok value ∧ next value = .ok result := by
  cases first with
  | error error => simp [bind, Except.bind]
  | ok value => simp [bind, Except.bind]

theorem map_eq_ok_iff {ε α β : Type} {first : Except ε α} {convert : α → β} {result : β} :
    first.map convert = .ok result ↔ ∃ value, first = .ok value ∧ convert value = result := by
  cases first <;> simp [Except.map]

theorem number_eq_ok_iff {read : Text → Option Nat} {place : Place} {value : Text} {result : Nat} :
    number read place value = .ok result ↔ read value = some result := by
  unfold number
  split <;> simp_all

namespace Machine

variable {Scope : Type} {machine : Machine Scope}

/-- A property of scopes that lines of some kind preserve, and a property that the classes have
which are completed in such a scope. -/
structure Maintains (machine : Machine Scope) (ofLine : Text → Prop) (ofScope : Scope → Prop)
    (ofClass : Class → Prop) : Prop where
  start : ofScope machine.start
  step : ∀ {scope line completed next}, ofScope scope → ofLine line →
    machine.step scope line = .ok (completed, next) →
    (∀ cls ∈ completed, ofClass cls) ∧ ofScope next
  finish : ∀ {scope classes}, ofScope scope → machine.finish scope = .ok classes →
    ∀ cls ∈ classes, ofClass cls

namespace Maintains

variable {ofLine : Text → Prop} {ofScope : Scope → Prop} {ofClass : Class → Prop}

theorem feed (maintains : machine.Maintains ofLine ofScope ofClass) {before : Nat}
    {scope final : Scope} {lines : List Text} {completed : List Class} (holds : ofScope scope)
    (linesHold : ∀ line ∈ lines, ofLine line)
    (fed : machine.feed before scope lines = .ok (completed, final)) :
    (∀ cls ∈ completed, ofClass cls) ∧ ofScope final := by
  induction lines generalizing before scope completed with
  | nil =>
      obtain ⟨rfl, rfl⟩ := by simpa [Machine.feed] using fed
      exact ⟨by simp, holds⟩
  | cons line lines ih =>
      rw [Machine.feed] at fed
      split at fed
      case h_1 _ => simp at fed
      case h_2 first next stepped =>
        obtain ⟨firstHold, nextHolds⟩ :=
          maintains.step holds (linesHold line (by simp)) stepped
        split at fed
        case h_1 _ => simp at fed
        case h_2 later last fedLater =>
          obtain ⟨rfl, rfl⟩ := by simpa using fed
          rcases ih nextHolds
            (fun other member => linesHold other (List.mem_cons_of_mem _ member)) fedLater with
            ⟨laterHold, lastHolds⟩
          refine ⟨fun cls member => ?_, lastHolds⟩
          rcases List.mem_append.1 member with inFirst | inLater
          · exact firstHold cls inFirst
          · exact laterHold cls inLater

theorem read (maintains : machine.Maintains ofLine ofScope ofClass) {text : Text}
    {classes : List Class} (linesHold : ∀ line ∈ Text.lines text, ofLine line)
    (accepted : machine.read text = .ok classes) : ∀ cls ∈ classes, ofClass cls := by
  rw [Machine.read, readLines] at accepted
  split at accepted
  case h_1 _ => simp at accepted
  case h_2 completed final fed =>
    rcases maintains.feed maintains.start linesHold fed with ⟨completedHold, finalHolds⟩
    split at accepted
    case h_1 _ => simp at accepted
    case h_2 last finished =>
      obtain rfl := by simpa using accepted
      intro cls member
      rcases List.mem_append.1 member with inCompleted | inLast
      · exact completedHold cls inCompleted
      · exact maintains.finish finalHolds finished cls inLast

end Maintains

/-- A property of scopes in view of the lines that led to them, and one of the classes that have
been completed by then, which further lines do not take from a class. -/
structure Recounts (machine : Machine Scope) (ofScope : List Text → Scope → Prop)
    (ofClass : List Text → Class → Prop) : Prop where
  start : ofScope [] machine.start
  step : ∀ {earlier scope line completed next}, ofScope earlier scope →
    machine.step scope line = .ok (completed, next) →
    (∀ cls ∈ completed, ofClass (earlier ++ [line]) cls) ∧ ofScope (earlier ++ [line]) next
  finish : ∀ {earlier scope classes}, ofScope earlier scope →
    machine.finish scope = .ok classes → ∀ cls ∈ classes, ofClass earlier cls
  more : ∀ {earlier cls} later, ofClass earlier cls → ofClass (earlier ++ later) cls

namespace Recounts

variable {ofScope : List Text → Scope → Prop} {ofClass : List Text → Class → Prop}

theorem feed (recounts : machine.Recounts ofScope ofClass) {before : Nat} {scope final : Scope}
    {earlier lines : List Text} {completed : List Class} (holds : ofScope earlier scope)
    (fed : machine.feed before scope lines = .ok (completed, final)) :
    (∀ cls ∈ completed, ofClass (earlier ++ lines) cls) ∧ ofScope (earlier ++ lines) final := by
  induction lines generalizing before scope earlier completed with
  | nil =>
      obtain ⟨rfl, rfl⟩ := by simpa [Machine.feed] using fed
      exact ⟨by simp, by simpa using holds⟩
  | cons line lines ih =>
      rw [Machine.feed] at fed
      split at fed
      case h_1 _ => simp at fed
      case h_2 first next stepped =>
        rcases recounts.step holds stepped with ⟨firstHold, nextHolds⟩
        split at fed
        case h_1 _ => simp at fed
        case h_2 later last fedLater =>
          obtain ⟨rfl, rfl⟩ := by simpa using fed
          obtain ⟨laterHold, lastHolds⟩ := ih nextHolds fedLater
          rw [List.append_assoc] at laterHold lastHolds
          refine ⟨fun cls member => ?_, lastHolds⟩
          rcases List.mem_append.1 member with inFirst | inLater
          · have known := recounts.more lines (firstHold cls inFirst)
            rwa [List.append_assoc] at known
          · exact laterHold cls inLater

theorem read (recounts : machine.Recounts ofScope ofClass) {text : Text} {classes : List Class}
    (accepted : machine.read text = .ok classes) :
    ∀ cls ∈ classes, ofClass (Text.lines text) cls := by
  rw [Machine.read, readLines] at accepted
  split at accepted
  case h_1 _ => simp at accepted
  case h_2 completed final fed =>
    obtain ⟨completedHold, finalHolds⟩ := recounts.feed recounts.start fed
    split at accepted
    case h_1 _ => simp at accepted
    case h_2 last finished =>
      obtain rfl := by simpa using accepted
      intro cls member
      rcases List.mem_append.1 member with inCompleted | inLast
      · exact completedHold cls inCompleted
      · exact recounts.finish finalHolds finished cls inLast

end Recounts

end Machine

end CompiledViews.Dump
