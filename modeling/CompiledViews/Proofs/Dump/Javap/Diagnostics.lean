import CompiledViews.Proofs.Dump.Faults
import CompiledViews.Proofs.Dump.Javap.OneLine

/-!
# Diagnostics of the reader of `javap` dumps

Whatever the reader of `javap` dumps complains of it finds on the line at hand.
-/

namespace CompiledViews.Dump.Javap

open Text Text.Form

variable {line : Text} {fault : Fault}

theorem jumpCode_reads : Reads line jumpCode (PartOf line) :=
  (Reads.either (.literal "goto") <| (Reads.literal "if").bind fun _ _ =>
    (Reads.span _).bind fun _ _ => .done).bind fun _ _ =>
  (Reads.span1 _).bind fun _ _ => (Reads.span1 _).bind fun _ addressIsPart =>
  Reads.atEnd.bind fun _ _ => .pure addressIsPart

theorem lineEntry_reads :
    Reads line lineEntry fun entry => PartOf line entry.1 ∧ PartOf line entry.2 :=
  (Reads.literal _).bind fun _ _ => (Reads.span1 _).bind fun _ sourceLineIsPart =>
  (Reads.literal _).bind fun _ _ => (Reads.span1 _).bind fun _ addressIsPart =>
  Reads.atEnd.bind fun _ _ => .pure ⟨sourceLineIsPart, addressIsPart⟩

theorem quotesHere_of_readInstruction {address code : Text} (addressIsPart : address <:+: line)
    (codeIsPart : code <:+: line) (failed : readInstruction address code = .error fault) :
    fault.QuotesHere line := by
  rcases bind_eq_error_iff.1 failed with noStart | ⟨start, _, failed⟩
  · exact .of_number addressIsPart noStart
  · dsimp only at failed
    split at failed
    case h_1 jump found =>
      rcases bind_eq_error_iff.1 failed with noTarget | ⟨target, _, failed⟩
      · exact .of_number (jumpCode_reads.first? codeIsPart found) (map_eq_error_iff.1 noTarget)
      · cases failed
    case h_2 _ => cases failed

theorem quotesHere_of_step {scope : Scope} (failed : step scope line = .error fault) :
    fault.QuotesHere line := by
  cases scope with
  | inCode parent method =>
      rw [step] at failed
      split at failed
      case h_1 _ => cases failed
      case h_2 address code found =>
        rcases bind_eq_error_iff.1 failed with unread | ⟨instruction, _, failed⟩
        · have parts := instructionLine_reads.first? (trim_isInfix line) found
          exact quotesHere_of_readInstruction parts.1 parts.2 unread
        · split at failed <;> cases failed
  | inTable parent method table =>
      rw [step] at failed
      split at failed
      case h_1 _ => cases failed
      case h_2 sourceLine address found =>
        have parts := lineEntry_reads.first? (trim_isInfix line) found
        rcases bind_eq_error_iff.1 failed with noValue | ⟨value, _, failed⟩
        · exact .of_number parts.1 noValue
        · rcases bind_eq_error_iff.1 failed with noKey | ⟨key, _, failed⟩
          · exact .of_number parts.2 noKey
          · cases failed
  | betweenClasses =>
      rw [step] at failed
      split at failed <;> cases failed
  | afterHeader parent header =>
      rw [step] at failed
      split at failed <;> cases failed
  | inSwitch parent method switch cases =>
      rw [step] at failed
      split at failed <;> cases failed
  | inClass parent => cases failed
  | beforeTable parent method => cases failed

/-- A text that an error quotes stands on the line that the error points at. -/
theorem exists_spot_of_read {text : Text} {error : Error} {lineNumber : Nat} {quoted : Text}
    (failed : read text = .error error) (quotes : error.quotation? = some (lineNumber, quoted)) :
    ∃ spot : Spot, spot.lines = Text.lines text ∧ lineNumber = spot.number ∧
      quoted <:+: spot.line := by
  rcases Machine.exists_quotation_of_read failed quotes with
    ⟨earlier, later, completed, scope, fault, place, isSplit, _, found, rfl, isQuoted, rfl⟩
  cases later with
  | nil => cases scope <;> cases found <;> cases isQuoted
  | cons line later =>
      obtain ⟨rfl, isPart⟩ := quotesHere_of_step found place quoted isQuoted
      exact ⟨⟨earlier, line, later⟩, isSplit.symm, rfl, isPart⟩

end CompiledViews.Dump.Javap
