import CompiledViews.Proofs.Dump.Reading

/-!
# Faults and what they quote

Most faults quote a text from the dump, and where a fault is located it gives the number of a line.
A fault that quotes the line at hand points at this line; one that points at the line before may
quote another one.
-/

namespace CompiledViews.Dump

theorem bind_eq_error_iff {ε α β : Type} {first : Except ε α} {next : α → Except ε β} {error : ε} :
    (first >>= next) = .error error ↔
      first = .error error ∨ ∃ value, first = .ok value ∧ next value = .error error := by
  cases first with
  | error other => simp [bind, Except.bind]
  | ok value => simp [bind, Except.bind]

theorem map_eq_error_iff {ε α β : Type} {first : Except ε α} {convert : α → β} {error : ε} :
    first.map convert = .error error ↔ first = .error error := by
  cases first <;> simp [Except.map]

theorem fault_of_number {read : Text → Option Nat} {place : Place} {value : Text} {fault : Fault}
    (failed : number read place value = .error fault) : fault = .invalidNumber place value := by
  unfold number at failed
  split at failed
  · cases failed
  · exact (Except.error.inj failed).symm

/-- The number of the line that an error points at, and the text that it quotes. -/
def Error.quotation? : Error → Option (Nat × Text)
  | unexpectedLine lineNumber _ found => some (lineNumber, found)
  | invalidNumber lineNumber value => some (lineNumber, value)
  | unexpectedEnd _ | unknownInstructionSet _ => none

/-- The place that a fault points at, and the text that it quotes. -/
def Fault.quotation? : Fault → Option (Place × Text)
  | unexpected place _ found => some (place, found)
  | invalidNumber place value => some (place, value)
  | unexpectedEnd _ | unknownInstructionSet _ => none

theorem Fault.quotation?_locate (fault : Fault) (before : Nat) :
    (fault.locate before).quotation? =
      fault.quotation?.map fun (place, quoted) => (place.lineNumber before, quoted) := by
  cases fault <;> rfl

/-- What a fault quotes, if anything, it quotes from the line at hand. -/
def Fault.QuotesHere (line : Text) (fault : Fault) : Prop :=
  ∀ place quoted, fault.quotation? = some (place, quoted) → place = .thisLine ∧ quoted <:+: line

theorem Fault.QuotesHere.of_unexpected {line found : Text} {expected : Expectation}
    (isPart : found <:+: line) :
    (Fault.unexpected .thisLine expected found).QuotesHere line := by
  rintro place quoted ⟨⟩
  exact ⟨rfl, isPart⟩

theorem Fault.QuotesHere.of_invalidNumber {line value : Text} (isPart : value <:+: line) :
    (Fault.invalidNumber .thisLine value).QuotesHere line := by
  rintro place quoted ⟨⟩
  exact ⟨rfl, isPart⟩

theorem Fault.QuotesHere.of_number {read : Text → Option Nat} {line value : Text} {fault : Fault}
    (isPart : value <:+: line) (failed : number read .thisLine value = .error fault) :
    fault.QuotesHere line := by
  rcases fault_of_number failed with rfl
  exact .of_invalidNumber isPart

/-- A line of a dump with the lines around it. -/
structure Spot where
  earlier : List Text
  line : Text
  later : List Text

namespace Spot

/-- All lines of the dump. -/
def lines (spot : Spot) : List Text := spot.earlier ++ spot.line :: spot.later

/-- The number of the line, counted from one. -/
def number (spot : Spot) : Nat := spot.earlier.length + 1

variable (earlier later : List Text) (line : Text)

theorem lines_mk : (Spot.mk earlier line later).lines = earlier ++ [line] ++ later :=
  List.append_cons ..

/-- Seen from the line after it, a line is the one before. -/
theorem lineNumber_lineBefore :
    Place.lineBefore.lineNumber (earlier ++ [line]).length = (Spot.mk earlier line later).number :=
  List.length_append

end Spot

/-- An error that quotes something comes from a fault that does. -/
theorem Machine.exists_quotation_of_read {Scope : Type} {machine : Machine Scope} {text : Text}
    {error : Error} {lineNumber : Nat} {quoted : Text} (failed : machine.read text = .error error)
    (quotes : error.quotation? = some (lineNumber, quoted)) :
    ∃ earlier later completed scope fault place, Text.lines text = earlier ++ later ∧
      machine.Reading machine.start earlier completed scope ∧
      machine.FindsFault scope fault later ∧ error = fault.locate earlier.length ∧
      fault.quotation? = some (place, quoted) ∧ lineNumber = place.lineNumber earlier.length := by
  rcases exists_fault_of_read failed with
    ⟨earlier, later, completed, scope, fault, isSplit, reading, found, rfl⟩
  rw [Fault.quotation?_locate] at quotes
  rcases Option.map_eq_some_iff.1 quotes with ⟨⟨place, _⟩, isQuoted, equal⟩
  rcases Prod.mk.inj equal with ⟨rfl, rfl⟩
  exact ⟨earlier, later, completed, scope, fault, place, isSplit, reading, found, rfl, isQuoted,
    rfl⟩

end CompiledViews.Dump
