import CompiledViews.Proofs.Dump.Dexdump.Grammar
import CompiledViews.Proofs.Dump.Faults
import CompiledViews.Proofs.Text.Form

/-!
# Diagnostics of the reader of `dexdump` dumps

The reader of `dexdump` dumps complains of what it finds on the line at hand, with one exception: a
descriptor stands in the signature of a method and is decoded only when the line number table of the
method ends. The fault is then said to be on the last line of the table.
-/

namespace CompiledViews.Dump.Dexdump

open Text Text.Form

variable {line : Text} {fault : Fault}

theorem positionLine_reads :
    Reads line positionLine fun entry => PartOf line entry.1 ∧ PartOf line entry.2 :=
  (Reads.span _).bind fun _ _ => (Reads.literal _).bind fun _ _ =>
  (Reads.span1 _).bind fun _ addressIsPart => (Reads.literal _).bind fun _ _ =>
  (Reads.span1 _).bind fun _ sourceLineIsPart => Reads.atEnd.bind fun _ _ =>
  .pure ⟨addressIsPart, sourceLineIsPart⟩

theorem jumpCode_reads : Reads line jumpCode (PartOf line) :=
  (Reads.exactly _ _).bind fun _ _ => (Reads.literal _).bind fun _ _ =>
  (Reads.upTo _ _).bind fun _ _ => (Reads.exactly _ _).bind fun _ addressIsPart =>
  (Reads.literal _).bind fun _ _ => (Reads.one _).bind fun _ _ =>
  (Reads.exactly _ _).bind fun _ _ => Reads.atEnd.bind fun _ _ => .pure addressIsPart

/-- The line at the end of some lines is the mark of a line number table or an entry of it, and
above it stands a signature with the descriptor. -/
def EndsTable (descriptor : Text) (lines : List Text) : Prop :=
  ∃ earlier last, lines = earlier ++ [last] ∧
    (marksPositions last = true ∨ positionLine.accepts last = true) ∧
    ∃ signature ∈ earlier, ∃ name,
      splitOnce ":" (afterLast '.' signature) = some (name, descriptor)

/-- Where the descriptor of the method at hand stands among the lines before. -/
def Scope.Recalls (earlier : List Text) : Scope → Prop
  | inCode _ method | beforePositions _ method => ∃ signature ∈ earlier, ∃ name,
      splitOnce ":" (afterLast '.' signature) = some (name, method.descriptor)
  | inPositions _ method _ => EndsTable method.descriptor earlier
  | _ => True

theorem recalls_stepInClass {parent : OpenClass} {completed : List Class} {next : Scope}
    {earlier : List Text} (stepped : stepInClass parent line = .ok (completed, next)) :
    next.Recalls earlier := by
  unfold stepInClass at stepped
  split at stepped
  · rcases Prod.mk.inj (Except.ok.inj stepped) with ⟨rfl, rfl⟩
    trivial
  · split at stepped
    · rcases map_eq_ok_iff.1 stepped with ⟨size, _, equal⟩
      rcases Prod.mk.inj equal with ⟨rfl, rfl⟩
      trivial
    · rcases Prod.mk.inj (Except.ok.inj stepped) with ⟨rfl, rfl⟩
      trivial

theorem recalls_stepBeforePositions {parent : OpenClass} {method : OpenMethod}
    {earlier : List Text} (recalls : (Scope.beforePositions parent method).Recalls earlier) :
    (stepBeforePositions parent method line).Recalls (earlier ++ [line]) := by
  unfold stepBeforePositions
  split
  case isTrue isMark => exact ⟨earlier, line, rfl, .inl isMark, recalls⟩
  case isFalse _ =>
    obtain ⟨signature, member, isSignature⟩ := recalls
    exact ⟨signature, List.mem_append_left _ member, isSignature⟩

theorem recalls_step {scope next : Scope} {completed : List Class} {earlier : List Text}
    (recalls : scope.Recalls earlier) (stepped : step scope line = .ok (completed, next)) :
    next.Recalls (earlier ++ [line]) := by
  cases scope with
  | betweenClasses =>
      rcases Prod.mk.inj (Except.ok.inj stepped) with ⟨rfl, rfl⟩
      split <;> trivial
  | beforeDescriptor =>
      rcases map_eq_ok_iff.1 stepped with ⟨scope, found, equal⟩
      rcases Prod.mk.inj equal with ⟨rfl, rfl⟩
      rw [stepDescriptor] at found
      split at found
      case h_1 _ => cases found
      case h_2 name _ =>
        obtain rfl := Except.ok.inj found
        split <;> trivial
  | inClass parent => exact recalls_stepInClass stepped
  | beforeSignature parent size =>
      rcases map_eq_ok_iff.1 stepped with ⟨scope, isSigned, equal⟩
      rcases Prod.mk.inj equal with ⟨rfl, rfl⟩
      rw [stepSignature] at isSigned
      split at isSigned
      case h_1 _ => cases isSigned
      case h_2 name descriptor isSplit =>
        obtain rfl := Except.ok.inj isSigned
        exact ⟨line, by simp, name, isSplit⟩
  | inCode parent method =>
      rw [step] at stepped
      split at stepped
      · rcases Prod.mk.inj (Except.ok.inj stepped) with ⟨rfl, rfl⟩
        exact recalls_stepBeforePositions recalls
      · rcases map_eq_ok_iff.1 stepped with ⟨instruction, _, equal⟩
        rcases Prod.mk.inj equal with ⟨rfl, rfl⟩
        obtain ⟨signature, member, isSignature⟩ := recalls
        exact ⟨signature, List.mem_append_left _ member, isSignature⟩
  | beforePositions parent method =>
      rcases Prod.mk.inj (Except.ok.inj stepped) with ⟨rfl, rfl⟩
      exact recalls_stepBeforePositions recalls
  | inPositions parent method table =>
      rw [step] at stepped
      split at stepped
      case h_1 address sourceLine found =>
        rcases bind_eq_ok_iff.1 stepped with ⟨key, _, stepped⟩
        rcases bind_eq_ok_iff.1 stepped with ⟨value, _, stepped⟩
        rcases Prod.mk.inj (Except.ok.inj stepped) with ⟨rfl, rfl⟩
        obtain ⟨before, last, rfl, _, signature, member, isSignature⟩ := recalls
        exact ⟨before ++ [last], line, rfl, .inr (by simp [accepts, found]), signature,
          List.mem_append_left _ member, isSignature⟩
      case h_2 _ =>
        rcases bind_eq_ok_iff.1 stepped with ⟨added, _, stepped⟩
        exact recalls_stepInClass stepped

theorem quotesHere_of_codeSize (failed : codeSize (trim line) = .error fault) :
    fault.QuotesHere line := by
  unfold codeSize at failed
  split at failed
  case h_1 _ =>
    obtain rfl := Except.error.inj failed
    exact .of_unexpected (trim_isInfix line)
  case h_2 units found =>
    obtain ⟨⟨_, value⟩, isSplit, isHead⟩ := Option.bind_eq_some_iff.1 found
    have unitsIsPart : units <:+: line :=
      ((infix_of_mem_words (List.mem_of_head? isHead)).trans (splitOnce_isInfix isSplit).2).trans
        (trim_isInfix line)
    rcases bind_eq_error_iff.1 failed with noCount | ⟨count, _, failed⟩
    · exact .of_number unitsIsPart noCount
    · split at failed
      · cases failed
      · obtain rfl := Except.error.inj failed
        exact .of_invalidNumber unitsIsPart

theorem quotesHere_of_readInstruction (failed : readInstruction line = .error fault) :
    fault.QuotesHere line := by
  have codeIsPart : ((splitOnce "|" line).map (·.2)).getD line <:+: line := by
    cases split : splitOnce "|" line with
    | none => exact List.infix_rfl
    | some parts => exact (splitOnce_isInfix split).2
  rw [readInstruction] at failed
  split at failed
  case h_1 _ =>
    obtain rfl := Except.error.inj failed
    exact .of_unexpected List.infix_rfl
  case h_2 label body isSplit =>
    rcases bind_eq_error_iff.1 failed with noAddress | ⟨address, _, failed⟩
    · exact .of_number ((splitOnce_isInfix isSplit).1.trans codeIsPart) noAddress
    · dsimp only at failed
      split at failed
      case h_1 jump found =>
        rcases bind_eq_error_iff.1 failed with noTarget | ⟨target, _, failed⟩
        · exact .of_number (jumpCode_reads.first? codeIsPart found) (map_eq_error_iff.1 noTarget)
        · cases failed
      case h_2 _ => cases failed

theorem quotesHere_of_stepInClass {parent : OpenClass}
    (failed : stepInClass parent line = .error fault) : fault.QuotesHere line := by
  unfold stepInClass at failed
  split at failed
  · cases failed
  · split at failed
    · exact quotesHere_of_codeSize (map_eq_error_iff.1 failed)
    · cases failed

theorem fault_of_add {parent : OpenClass} {method : OpenMethod} {table : NatMap Nat}
    (failed : parent.add method table = .error fault) :
    fault = .unexpected .lineBefore .methodDescriptor method.descriptor := by
  unfold OpenClass.add at failed
  split at failed
  · exact (Except.error.inj failed).symm
  · cases failed

/-- A fault quotes the line at hand, unless it is a descriptor that a line number table follows. -/
theorem quotesHere_or_of_step {scope : Scope} {earlier : List Text}
    (recalls : scope.Recalls earlier) (failed : step scope line = .error fault) :
    fault.QuotesHere line ∨ ∃ descriptor, EndsTable descriptor earlier ∧
      fault = .unexpected .lineBefore .methodDescriptor descriptor := by
  cases scope with
  | betweenClasses => cases failed
  | beforeDescriptor =>
      left
      have unnamed := map_eq_error_iff.1 failed
      unfold stepDescriptor at unnamed
      split at unnamed
      · obtain rfl := Except.error.inj unnamed
        exact .of_unexpected List.infix_rfl
      · cases unnamed
  | inClass parent => exact .inl (quotesHere_of_stepInClass failed)
  | beforeSignature parent size =>
      left
      have unsigned := map_eq_error_iff.1 failed
      unfold stepSignature at unsigned
      split at unsigned
      · obtain rfl := Except.error.inj unsigned
        exact .of_unexpected List.infix_rfl
      · cases unsigned
  | inCode parent method =>
      left
      rw [step] at failed
      split at failed
      · cases failed
      · exact quotesHere_of_readInstruction (map_eq_error_iff.1 failed)
  | beforePositions parent method => cases failed
  | inPositions parent method table =>
      rw [step] at failed
      split at failed
      case h_1 address sourceLine found =>
        left
        have parts := positionLine_reads.first? List.infix_rfl found
        rcases bind_eq_error_iff.1 failed with noKey | ⟨key, _, failed⟩
        · exact .of_number parts.1 noKey
        · rcases bind_eq_error_iff.1 failed with noValue | ⟨value, _, failed⟩
          · exact .of_number parts.2 noValue
          · cases failed
      case h_2 _ =>
        rcases bind_eq_error_iff.1 failed with notAdded | ⟨added, _, failed⟩
        · exact .inr ⟨method.descriptor, recalls, fault_of_add notAdded⟩
        · exact .inl (quotesHere_of_stepInClass failed)

/-- A fault that quotes something is found on a line and quotes it, or a line number table has
ended, be it at a line or at the end of the dump. -/
theorem quotesHere_or_of_findsFault {scope : Scope} {earlier later : List Text}
    {quotation : Place × Text} (recalls : scope.Recalls earlier)
    (found : machine.FindsFault scope fault later) (quotes : fault.quotation? = some quotation) :
    (∃ line rest, later = line :: rest ∧ fault.QuotesHere line) ∨
      ∃ descriptor, EndsTable descriptor earlier ∧
        fault = .unexpected .lineBefore .methodDescriptor descriptor := by
  cases later with
  | nil =>
      right
      cases scope with
      | inPositions parent method table =>
          rcases bind_eq_error_iff.1 found with notAdded | ⟨added, _, failed⟩
          · exact ⟨method.descriptor, recalls, fault_of_add notAdded⟩
          · cases failed
            cases quotes
      | betweenClasses => cases found
      | _ => cases found; cases quotes
  | cons line rest =>
      exact (quotesHere_or_of_step recalls found).imp_left fun here => ⟨line, rest, rfl, here⟩

/-- A text that an error quotes stands on the line that the error points at, unless the error is
that the descriptor of a method cannot be decoded. Then the error points at the last line of the
line number table of the method, and the descriptor stands in a signature above. -/
theorem exists_spot_of_read {text : Text} {error : Error} {lineNumber : Nat} {quoted : Text}
    (failed : read text = .error error) (quotes : error.quotation? = some (lineNumber, quoted)) :
    ∃ spot : Spot, spot.lines = Text.lines text ∧ lineNumber = spot.number ∧
      (quoted <:+: spot.line ∨
        error = .unexpectedLine lineNumber .methodDescriptor quoted ∧
          EndsTable quoted (spot.earlier ++ [spot.line])) := by
  rcases Machine.exists_quotation_of_read failed quotes with
    ⟨earlier, later, completed, scope, fault, place, isSplit, reading, found, rfl, isQuoted, rfl⟩
  have recalls := reading.recounts Scope.Recalls recalls_step trivial
  rcases quotesHere_or_of_findsFault recalls found isQuoted with
    ⟨line, rest, rfl, here⟩ | ⟨descriptor, endsTable, rfl⟩
  · obtain ⟨rfl, isPart⟩ := here place quoted isQuoted
    exact ⟨⟨earlier, line, rest⟩, isSplit.symm, rfl, .inl isPart⟩
  · -- the fault is placed on the line before, which is the last one of the table
    obtain ⟨before, last, rfl, _⟩ := id endsTable
    obtain ⟨rfl, rfl⟩ := Prod.mk.inj (Option.some.inj isQuoted)
    exact ⟨⟨before, last, later⟩, isSplit ▸ Spot.lines_mk .., Spot.lineNumber_lineBefore ..,
      .inr ⟨rfl, endsTable⟩⟩

end CompiledViews.Dump.Dexdump
