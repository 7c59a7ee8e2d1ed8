import CompiledViews.Text.Cursor

/-!
# Where operations lead

A place between lines divides the lines of a text: those that have been passed, as many as its
number says, and those that remain. `Operation.Does` states for each operation at which place it
leaves off, and with which answer; each of them passes the first lines that remain, or none. So
whatever is asked in whatever order, the lines that have been passed one after the other are the
first ones of the text, and those that remain are the others.
-/

namespace CompiledViews.Text.Cursor

variable {α : Type}

/-- A line that begins with a mark, once it is trimmed. -/
abbrev Bears (mark line : Text) : Prop := startsWith (trim line) mark = true

/-- What an operation at a place does: its answer, and the place where it leaves off. -/
inductive Operation.Does (place : Cursor) : Operation α → Answer α → Cursor → Prop
  | hasNext (value : Bool) (isMore : value = true ↔ place.remaining ≠ []) :
    Does place .hasNext (.truth value) place
  | peek : Does place .peek (.line place.remaining.head?) place
  | next {line rest} (isNext : place.remaining = line :: rest) :
    Does place .next (.line (some line)) ⟨rest, place.lineNumber + 1⟩
  | nextAtEnd (noMore : place.remaining = []) : Does place .next (.line none) place
  | seekMark {mark skipped line rest} (split : place.remaining = skipped ++ line :: rest)
    (others : ∀ other ∈ skipped, ¬Bears mark other) (bears : Bears mark line) :
    Does place (.seekMark mark) (.truth true) ⟨rest, place.lineNumber + skipped.length + 1⟩
  | seekMarkToEnd {mark} (others : ∀ other ∈ place.remaining, ¬Bears mark other) :
    Does place (.seekMark mark) (.truth false)
      ⟨[], place.lineNumber + place.remaining.length⟩
  | seekAnswer {find skipped line rest answer}
    (split : place.remaining = skipped ++ line :: rest)
    (others : ∀ other ∈ skipped, find other = none) (isAnswer : find line = some answer) :
    Does place (.seekAnswer find) (.found (some answer))
      ⟨rest, place.lineNumber + skipped.length + 1⟩
  | seekAnswerToEnd {find} (others : ∀ other ∈ place.remaining, find other = none) :
    Does place (.seekAnswer find) (.found none) ⟨[], place.lineNumber + place.remaining.length⟩
  | seekMarkBefore {mark stop skipped line rest}
    (split : place.remaining = skipped ++ line :: rest)
    (others : ∀ other ∈ skipped, ¬Bears mark other) (bears : Bears mark line)
    (goesOn : ∀ other ∈ skipped ++ [line], stop other = false) :
    Does place (.seekMarkBefore mark stop) (.line (some line))
      ⟨rest, place.lineNumber + skipped.length + 1⟩
  | stopsBefore {mark stop skipped line rest}
    (split : place.remaining = skipped ++ line :: rest)
    (others : ∀ other ∈ skipped, ¬Bears mark other)
    (goesOn : ∀ other ∈ skipped, stop other = false) (stops : stop line = true) :
    Does place (.seekMarkBefore mark stop) (.line none)
      ⟨line :: rest, place.lineNumber + skipped.length⟩
  | seekMarkBeforeToEnd {mark stop} (others : ∀ other ∈ place.remaining, ¬Bears mark other)
    (goesOn : ∀ other ∈ place.remaining, stop other = false) :
    Does place (.seekMarkBefore mark stop) (.line none)
      ⟨[], place.lineNumber + place.remaining.length⟩

/-! ### What is done is what the definitions compute -/

theorem seek_append {find : Text → Option α} {skipped : List Text}
    (others : ∀ other ∈ skipped, find other = none) (rest : List Text) (lineNumber : Nat) :
    seek find (skipped ++ rest) lineNumber = seek find rest (lineNumber + skipped.length) := by
  induction skipped generalizing lineNumber with
  | nil => rfl
  | cons line skipped ih =>
      obtain ⟨isNone, others⟩ := List.forall_mem_cons.1 others
      rw [List.cons_append, seek, isNone]
      exact (ih others _).trans (by rw [List.length_cons, Nat.add_assoc, Nat.add_comm 1])

theorem seek_eq_none {find : Text → Option α} {lines : List Text}
    (others : ∀ other ∈ lines, find other = none) (lineNumber : Nat) :
    seek find lines lineNumber = (none, ⟨[], lineNumber + lines.length⟩) := by
  have toEnd := seek_append others [] lineNumber
  rwa [List.append_nil] at toEnd

theorem seekBefore_append {mark : Text} {stop : Text → Bool} {skipped : List Text}
    (others : ∀ other ∈ skipped, ¬Bears mark other)
    (goesOn : ∀ other ∈ skipped, stop other = false) (rest : List Text) (lineNumber : Nat) :
    seekBefore mark stop (skipped ++ rest) lineNumber =
      seekBefore mark stop rest (lineNumber + skipped.length) := by
  induction skipped generalizing lineNumber with
  | nil => rfl
  | cons line skipped ih =>
      obtain ⟨bearsNot, others⟩ := List.forall_mem_cons.1 others
      obtain ⟨isNoStop, goesOn⟩ := List.forall_mem_cons.1 goesOn
      rw [List.cons_append, seekBefore, isNoStop, if_neg Bool.false_ne_true, if_neg bearsNot]
      exact (ih others goesOn _).trans (by rw [List.length_cons, Nat.add_assoc, Nat.add_comm 1])

theorem mark_answer_eq_none {mark : Text} {lines : List Text}
    (others : ∀ other ∈ lines, ¬Bears mark other) :
    ∀ other ∈ lines, (if startsWith (trim other) mark then some () else none) = none :=
  fun other member => if_neg (others other member)

/-- At a place an operation does one thing only, which is what performing it gives. -/
theorem Operation.Does.perform_eq {place next : Cursor} {operation : Operation α}
    {answer : Answer α} (does : operation.Does place answer next) :
    place.perform operation = (answer, next) := by
  obtain ⟨remaining, lineNumber⟩ := place
  cases does with
  | hasNext value isMore =>
      cases remaining <;> cases value <;> simp_all [perform, Cursor.hasNext]
  | peek => rfl
  | next isNext =>
      cases isNext
      rfl
  | nextAtEnd noMore =>
      cases noMore
      rfl
  | seekMark split others bears =>
      cases split
      simp [perform, Cursor.seekMark, Cursor.seekAnswer, seek_append (mark_answer_eq_none others),
        seek, bears]
  | seekMarkToEnd others =>
      simp [perform, Cursor.seekMark, Cursor.seekAnswer, seek_eq_none (mark_answer_eq_none others)]
  | seekAnswer split others isAnswer =>
      cases split
      simp [perform, Cursor.seekAnswer, seek_append others, seek, isAnswer]
  | seekAnswerToEnd others => simp [perform, Cursor.seekAnswer, seek_eq_none others]
  | seekMarkBefore split others bears goesOn =>
      cases split
      obtain ⟨goesOnBefore, goesOnThere⟩ := List.forall_mem_append.1 goesOn
      simp [perform, Cursor.seekMarkBefore, seekBefore_append others goesOnBefore, seekBefore,
        bears, goesOnThere]
  | stopsBefore split others goesOn stops =>
      cases split
      simp [perform, Cursor.seekMarkBefore, seekBefore_append others goesOn, seekBefore, stops]
  | seekMarkBeforeToEnd others goesOn =>
      have toEnd := seekBefore_append others goesOn [] lineNumber
      rw [List.append_nil] at toEnd
      simp [perform, Cursor.seekMarkBefore, toEnd, seekBefore]

/-- Lines have a first one that passes a test, or none that does. -/
theorem exists_first_or_forall (test : Text → Bool) (lines : List Text) :
    (∃ skipped line rest, lines = skipped ++ line :: rest ∧
      (∀ other ∈ skipped, test other = false) ∧ test line = true) ∨
      ∀ line ∈ lines, test line = false := by
  cases isFirst : lines.find? test with
  | some line =>
      obtain ⟨passes, skipped, rest, split, others⟩ := List.find?_eq_some_iff_append.1 isFirst
      exact .inl ⟨skipped, line, rest, split, by simpa using others, passes⟩
  | none => exact .inr (by simpa using isFirst)

/-- At each place an operation does something. -/
theorem Operation.exists_does (place : Cursor) (operation : Operation α) :
    ∃ answer next, operation.Does place answer next := by
  cases operation with
  | hasNext => exact ⟨_, _, .hasNext (!place.remaining.isEmpty) (by simp)⟩
  | peek => exact ⟨_, _, .peek⟩
  | next =>
      cases isNext : place.remaining with
      | nil => exact ⟨_, _, .nextAtEnd isNext⟩
      | cons line rest => exact ⟨_, _, .next isNext⟩
  | seekMark mark =>
      rcases exists_first_or_forall (fun line => startsWith (trim line) mark) place.remaining with
        ⟨skipped, line, rest, split, others, bears⟩ | others
      · exact ⟨_, _, .seekMark split (by simpa using others) bears⟩
      · exact ⟨_, _, .seekMarkToEnd (by simpa using others)⟩
  | seekAnswer find =>
      rcases exists_first_or_forall (fun line => (find line).isSome) place.remaining with
        ⟨skipped, line, rest, split, others, isSome⟩ | others
      · obtain ⟨answer, isAnswer⟩ := Option.isSome_iff_exists.1 isSome
        exact ⟨_, _, .seekAnswer split (by simpa using others) isAnswer⟩
      · exact ⟨_, _, .seekAnswerToEnd (by simpa using others)⟩
  | seekMarkBefore mark stop =>
      rcases exists_first_or_forall (fun line => stop line || startsWith (trim line) mark)
        place.remaining with ⟨skipped, line, rest, split, others, isFirst⟩ | others
      · simp only [Bool.or_eq_false_iff] at others
        have goesOn : ∀ other ∈ skipped, stop other = false :=
          fun other member => (others other member).1
        have bearNot : ∀ other ∈ skipped, ¬Bears mark other :=
          fun other member => by simp [(others other member).2]
        -- A line that stops the search does so even if it bears the mark.
        cases stops : stop line with
        | true => exact ⟨_, _, .stopsBefore split bearNot goesOn stops⟩
        | false =>
            have bears : Bears mark line := by simpa [stops] using isFirst
            exact ⟨_, _, .seekMarkBefore split bearNot bears
              (List.forall_mem_append.2 ⟨goesOn, by simpa using stops⟩)⟩
      · simp only [Bool.or_eq_false_iff] at others
        exact ⟨_, _, .seekMarkBeforeToEnd
          (fun other member => by simp [(others other member).2])
          fun other member => (others other member).1⟩

theorem does_iff_perform_eq {place next : Cursor} {operation : Operation α} {answer : Answer α} :
    operation.Does place answer next ↔ place.perform operation = (answer, next) := by
  refine ⟨Operation.Does.perform_eq, fun isStep => ?_⟩
  obtain ⟨answer', next', does⟩ := operation.exists_does place
  cases does.perform_eq.symm.trans isStep
  exact does

/-! ### Lines that are passed -/

/-- A place is left for a later one by passing the lines between them. -/
structure Passes (place : Cursor) (lines : List Text) (later : Cursor) : Prop where
  remaining : place.remaining = lines ++ later.remaining
  lineNumber : later.lineNumber = place.lineNumber + lines.length

theorem Operation.Does.exists_passes {place next : Cursor} {operation : Operation α}
    {answer : Answer α} (does : operation.Does place answer next) :
    ∃ lines, place.Passes lines next := by
  cases does with
  | hasNext | peek | nextAtEnd => exact ⟨[], rfl, rfl⟩
  | @next line rest isNext => exact ⟨[line], isNext, rfl⟩
  | @seekMark _ skipped line rest split | @seekAnswer _ skipped line rest _ split
  | @seekMarkBefore _ _ skipped line rest split =>
      exact ⟨skipped ++ [line], by simp [split], by simp [Nat.add_assoc]⟩
  | seekMarkToEnd | seekAnswerToEnd | seekMarkBeforeToEnd =>
      exact ⟨place.remaining, by simp, rfl⟩
  | @stopsBefore _ _ skipped line rest split => exact ⟨skipped, split, rfl⟩

namespace Passes

variable {place later last : Cursor} {passed others : List Text}

theorem refl (place : Cursor) : place.Passes [] place := ⟨rfl, rfl⟩

theorem trans (first : place.Passes passed later) (second : later.Passes others last) :
    place.Passes (passed ++ others) last := by
  refine ⟨?_, ?_⟩
  · rw [first.remaining, second.remaining, List.append_assoc]
  · rw [second.lineNumber, first.lineNumber, List.length_append, Nat.add_assoc]

/-- From before the first line, as many lines are passed as the number says. -/
theorem eq_take_of_ofText {text : Text} (passes : (ofText text).Passes passed later) :
    passed = (lines text).take later.lineNumber ∧
      later.remaining = (lines text).drop later.lineNumber ∧
      later.lineNumber ≤ (lines text).length := by
  have split : lines text = passed ++ later.remaining := passes.remaining
  have counted : later.lineNumber = passed.length := passes.lineNumber.trans (Nat.zero_add _)
  rw [split, counted]
  exact ⟨(List.take_left' rfl).symm, (List.drop_left' rfl).symm, by simp⟩

end Passes

/-- The lines that operations pass, those of one after those of the other. -/
inductive Reads : Cursor → List (Operation α) → List Text → Prop
  | nil {place} : Reads place [] []
  | cons {place operation operations passed others}
    (passes : place.Passes passed (place.perform operation).2)
    (reads : Reads (place.perform operation).2 operations others) :
    Reads place (operation :: operations) (passed ++ others)

theorem exists_reads (place : Cursor) (operations : List (Operation α)) :
    ∃ passed, Reads place operations passed ∧ place.Passes passed (place.after operations) := by
  induction operations generalizing place with
  | nil => exact ⟨[], .nil, .refl place⟩
  | cons operation operations ih =>
      obtain ⟨answer, next, does⟩ := operation.exists_does place
      obtain ⟨passed, passes⟩ := does.exists_passes
      have isNext : (place.perform operation).2 = next := congrArg Prod.snd does.perform_eq
      rw [← isNext] at passes
      obtain ⟨others, reads, later⟩ := ih (place.perform operation).2
      exact ⟨passed ++ others, .cons passes reads, passes.trans later⟩

/-- Whatever is asked of a text in whatever order, the lines that have been passed are its first
ones, as many as the number of the place says, and those that remain are the others. What is asked
next does what it is to do, and nothing else. -/
theorem reads_take_lineNumber (text : Text) (operations : List (Operation α)) :
    let place := (ofText text).after operations
    Reads (ofText text) operations ((lines text).take place.lineNumber) ∧
      place.remaining = (lines text).drop place.lineNumber ∧
      place.lineNumber ≤ (lines text).length ∧
      ∀ (operation : Operation α) (answer : Answer α) (next : Cursor),
        place.perform operation = (answer, next) ↔ operation.Does place answer next := by
  intro place
  obtain ⟨passed, reads, passes⟩ := exists_reads (ofText text) operations
  obtain ⟨areFirst, remain, inRange⟩ := passes.eq_take_of_ofText
  exact ⟨areFirst ▸ reads, remain, inRange, fun _ _ _ => does_iff_perform_eq.symm⟩

end CompiledViews.Text.Cursor
