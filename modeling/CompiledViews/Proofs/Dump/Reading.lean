import CompiledViews.Proofs.Dump.Machine

/-!
# Readings

What a machine makes of some lines, as a relation: the lines take it from one scope to another and
complete classes on the way. A reading of two lists of lines is a reading of the first and one of
the second from where the first ends. A dump is read successfully when all of it has a reading at
whose end no class is left open; otherwise there is a reading up to the line, or up to the end,
where the machine finds the fault.
-/

namespace CompiledViews.Dump.Machine

variable {Scope : Type} {machine : Machine Scope}

/-- Lines take the machine from a scope to another one and complete classes. -/
inductive Reading (machine : Machine Scope) : Scope → List Text → List Class → Scope → Prop where
  | done (scope : Scope) : Reading machine scope [] [] scope
  | line {scope next final : Scope} {first : Text} {rest : List Text} {completed later : List Class}
      (stepped : machine.step scope first = .ok (completed, next))
      (others : Reading machine next rest later final) :
      Reading machine scope (first :: rest) (completed ++ later) final

namespace Reading

variable {scope final : Scope} {completed : List Class}

theorem nil_iff : machine.Reading scope [] completed final ↔ completed = [] ∧ scope = final := by
  constructor
  · rintro ⟨⟩
    exact ⟨rfl, rfl⟩
  · rintro ⟨rfl, rfl⟩
    exact .done scope

theorem cons_iff {first : Text} {rest : List Text} :
    machine.Reading scope (first :: rest) completed final ↔
      ∃ early next late, machine.step scope first = .ok (early, next) ∧
        machine.Reading next rest late final ∧ completed = early ++ late := by
  constructor
  · rintro ⟨⟩
    case line next early late stepped others => exact ⟨early, next, late, stepped, others, rfl⟩
  · rintro ⟨early, next, late, stepped, others, rfl⟩
    exact .line stepped others

theorem append_iff {first second : List Text} :
    machine.Reading scope (first ++ second) completed final ↔
      ∃ early middle late, machine.Reading scope first early middle ∧
        machine.Reading middle second late final ∧ completed = early ++ late := by
  induction first generalizing scope completed with
  | nil =>
      constructor
      · intro reading
        exact ⟨[], scope, completed, .done scope, reading, rfl⟩
      · rintro ⟨early, middle, late, readFirst, readSecond, rfl⟩
        rcases nil_iff.1 readFirst with ⟨rfl, rfl⟩
        exact readSecond
  | cons line first ih =>
      rw [List.cons_append, cons_iff]
      constructor
      · rintro ⟨early, next, late, stepped, others, rfl⟩
        rcases ih.1 others with ⟨before, middle, after, readFirst, readSecond, rfl⟩
        exact ⟨early ++ before, middle, after, .line stepped readFirst, readSecond, by simp⟩
      · rintro ⟨early, middle, late, readFirst, readSecond, rfl⟩
        rcases cons_iff.1 readFirst with ⟨before, next, after, stepped, others, rfl⟩
        exact ⟨before, next, after ++ late, stepped,
          ih.2 ⟨after, middle, late, others, readSecond, rfl⟩, by simp⟩

theorem one {line : Text} (stepped : machine.step scope line = .ok (completed, final)) :
    machine.Reading scope [line] completed final :=
  cons_iff.2 ⟨completed, final, [], stepped, .done final, by simp⟩

/-- A line that completes no class, and a reading of the lines below it. -/
theorem goOn {next : Scope} {line : Text} {rest : List Text}
    (stepped : machine.step scope line = .ok ([], next))
    (others : machine.Reading next rest completed final) :
    machine.Reading scope (line :: rest) completed final :=
  .line stepped others

/-- A reading goes on where another one ends. -/
theorem append {middle : Scope} {later : List Class} {first second : List Text}
    (readFirst : machine.Reading scope first completed middle)
    (readSecond : machine.Reading middle second later final) :
    machine.Reading scope (first ++ second) (completed ++ later) final :=
  append_iff.2 ⟨completed, middle, later, readFirst, readSecond, rfl⟩

/-- Lines that leave the machine where it is. -/
theorem loop {lines : List Text}
    (stays : ∀ line ∈ lines, machine.step scope line = .ok ([], scope)) :
    machine.Reading scope lines [] scope := by
  induction lines with
  | nil => exact .done scope
  | cons line lines ih =>
      obtain ⟨staysHere, others⟩ := List.forall_mem_cons.1 stays
      exact goOn staysHere (ih others)

/-- The lines of some items one after the other, each of which brings the machine back to where it
was. -/
theorem flatMap {Item : Type} {items : List Item} {linesOf : Item → List Text}
    {classesOf : Item → List Class}
    (each : ∀ item ∈ items, machine.Reading scope (linesOf item) (classesOf item) scope) :
    machine.Reading scope (items.flatMap linesOf) (items.flatMap classesOf) scope := by
  induction items with
  | nil => exact .done scope
  | cons item items ih =>
      obtain ⟨readsItem, others⟩ := List.forall_mem_cons.1 each
      exact readsItem.append (ih others)

theorem feed {lines : List Text} (reading : machine.Reading scope lines completed final)
    (before : Nat) : machine.feed before scope lines = .ok (completed, final) := by
  induction reading generalizing before with
  | done scope => rfl
  | line stepped others ih => rw [Machine.feed, stepped]; simp only [ih]

/-- What a line preserves of a scope, in view of the lines before it, a reading preserves. -/
theorem recounts {lines : List Text} (reading : machine.Reading scope lines completed final)
    (ofScope : List Text → Scope → Prop)
    (step : ∀ {earlier scope line completed next}, ofScope earlier scope →
      machine.step scope line = .ok (completed, next) → ofScope (earlier ++ [line]) next)
    (start : ofScope [] scope) : ofScope lines final := by
  suffices ∀ earlier, ofScope earlier scope → ofScope (earlier ++ lines) final from this [] start
  clear start
  induction reading with
  | done scope =>
      intro earlier holds
      rwa [List.append_nil]
  | line stepped others ih =>
      intro earlier holds
      rw [List.append_cons]
      exact ih _ (step holds stepped)

end Reading

theorem reading_of_feed {before : Nat} {scope final : Scope} {lines : List Text}
    {completed : List Class} (fed : machine.feed before scope lines = .ok (completed, final)) :
    machine.Reading scope lines completed final := by
  induction lines generalizing before scope completed with
  | nil =>
      obtain ⟨rfl, rfl⟩ := by simpa [feed] using fed
      exact .done scope
  | cons line lines ih =>
      rw [feed] at fed
      split at fed
      case h_1 _ => cases fed
      case h_2 early next stepped =>
        split at fed
        case h_1 _ => cases fed
        case h_2 late last fedLater =>
          obtain ⟨rfl, rfl⟩ := by simpa using fed
          exact .line stepped (ih fedLater)

/-- Lines that cannot be fed to the machine have a first one at which it finds a fault. -/
theorem exists_fault_of_feed {before : Nat} {scope : Scope} {lines : List Text} {error : Error}
    (failed : machine.feed before scope lines = .error error) :
    ∃ earlier line later completed middle fault, lines = earlier ++ line :: later ∧
      machine.Reading scope earlier completed middle ∧ machine.step middle line = .error fault ∧
      error = fault.locate (before + earlier.length) := by
  induction lines generalizing before scope with
  | nil => simp [feed] at failed
  | cons line lines ih =>
      rw [feed] at failed
      split at failed
      case h_1 fault stepped =>
        obtain rfl := by simpa using failed
        exact ⟨[], line, lines, [], scope, fault, rfl, .done scope, stepped, rfl⟩
      case h_2 early next stepped =>
        split at failed
        case h_1 _ failedLater =>
          obtain rfl := by simpa using failed
          rcases ih failedLater with
            ⟨earlier, other, later, completed, middle, fault, rfl, reading, found, rfl⟩
          refine ⟨line :: earlier, other, later, early ++ completed, middle, fault, rfl,
            .line stepped reading, found, ?_⟩
          rw [List.length_cons, Nat.add_right_comm, Nat.add_assoc]
        case h_2 _ => cases failed

/-- A dump is read when all its lines are, and the machine may stop in the scope where they end. -/
theorem read_eq_ok_iff {text : Text} {classes : List Class} :
    machine.read text = .ok classes ↔
      ∃ completed final last, machine.Reading machine.start (Text.lines text) completed final ∧
        machine.finish final = .ok last ∧ classes = completed ++ last := by
  rw [read, readLines]
  constructor
  · intro accepted
    split at accepted
    case h_1 _ => cases accepted
    case h_2 completed final fed =>
      split at accepted
      case h_1 _ => cases accepted
      case h_2 last finished =>
        obtain rfl := by simpa using accepted
        exact ⟨completed, final, last, reading_of_feed fed, finished, rfl⟩
  · rintro ⟨completed, final, last, reading, finished, rfl⟩
    simp only [reading.feed 0, finished]

/-- In a scope the machine finds a fault in the first one of the lines that are still to come, or in
the end of the dump if there are none. -/
def FindsFault (machine : Machine Scope) (scope : Scope) (fault : Fault) : List Text → Prop
  | [] => machine.finish scope = .error fault
  | line :: _ => machine.step scope line = .error fault

/-- A dump that cannot be read is read up to the line where the machine finds a fault, or up to the
end if it finds none before. -/
theorem exists_fault_of_read {text : Text} {error : Error}
    (failed : machine.read text = .error error) :
    ∃ earlier later completed scope fault, Text.lines text = earlier ++ later ∧
      machine.Reading machine.start earlier completed scope ∧
      machine.FindsFault scope fault later ∧ error = fault.locate earlier.length := by
  rw [read, readLines] at failed
  split at failed
  case h_1 _ failedFeed =>
    obtain rfl := by simpa using failed
    rcases exists_fault_of_feed failedFeed with
      ⟨earlier, line, later, completed, scope, fault, isSplit, reading, found, rfl⟩
    exact ⟨earlier, line :: later, completed, scope, fault, isSplit, reading, found, by simp⟩
  case h_2 completed final fed =>
    split at failed
    case h_1 fault finished =>
      obtain rfl := by simpa using failed
      exact ⟨Text.lines text, [], completed, final, fault, by simp, reading_of_feed fed, finished,
        rfl⟩
    case h_2 _ => cases failed

end CompiledViews.Dump.Machine
