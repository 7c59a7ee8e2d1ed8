import CompiledViews.Dump.Content
import CompiledViews.Proofs.Dump.Dexdump.Diagnostics
import CompiledViews.Proofs.Dump.Javap.Diagnostics
import CompiledViews.Proofs.Dump.Oatdump.Diagnostics

/-!
# Diagnostics point at the offending line

An error that quotes a text from a dump gives the number of one of its lines. For `javap` dumps that
is a line with the text. The other readers notice some faults late, when they have gone on to
another line, and then give the number of that one.
-/

namespace CompiledViews.Dump

open Text

/-- An error quotes a text that the reader of its format has left behind or only looked ahead to:
the descriptor of a method whose line number table ends at the line, or a number from the lines
around a `StackMap` line. -/
inductive QuotesElsewhere (spot : Spot) (quoted : Text) : Format → Error → Prop where
  | descriptor (endsTable : Dexdump.EndsTable quoted (spot.earlier ++ [spot.line])) :
      QuotesElsewhere spot quoted .dexdump
        (.unexpectedLine spot.number .methodDescriptor quoted)
  | aroundStackMap (around : Oatdump.AroundStackMap spot quoted) :
      QuotesElsewhere spot quoted .oatdump (.invalidNumber spot.number quoted)

/-- The number that an error gives is that of a line of the dump, and the text that it quotes stands
on this line, unless the reader noticed the fault late. -/
theorem quotation_of_read {format : Format} {text : Text} {error : Error} {lineNumber : Nat}
    {quoted : Text} (failed : format.read text = .error error)
    (quotes : error.quotation? = some (lineNumber, quoted)) :
    ∃ spot : Spot, spot.lines = Text.lines text ∧ lineNumber = spot.number ∧
      1 ≤ lineNumber ∧ lineNumber ≤ (Text.lines text).length ∧
      (quoted <:+: spot.line ∨ QuotesElsewhere spot quoted format error) := by
  obtain ⟨spot, isDump, rfl, holds⟩ : ∃ spot : Spot, spot.lines = Text.lines text ∧
      lineNumber = spot.number ∧
        (quoted <:+: spot.line ∨ QuotesElsewhere spot quoted format error) := by
    cases format with
    | javap =>
        obtain ⟨spot, isDump, isNumber, isPart⟩ := Javap.exists_spot_of_read failed quotes
        exact ⟨spot, isDump, isNumber, .inl isPart⟩
    | dexdump =>
        obtain ⟨spot, isDump, rfl, holds⟩ := Dexdump.exists_spot_of_read failed quotes
        refine ⟨spot, isDump, rfl, holds.imp_right ?_⟩
        rintro ⟨rfl, endsTable⟩
        exact .descriptor endsTable
    | oatdump =>
        obtain ⟨spot, isDump, rfl, holds⟩ := Oatdump.exists_spot_of_read failed quotes
        refine ⟨spot, isDump, rfl, holds.imp_right ?_⟩
        rintro ⟨rfl, around⟩
        exact .aroundStackMap around
  refine ⟨spot, isDump, rfl, Nat.le_add_left .., ?_, holds⟩
  rw [← isDump, Spot.lines, Spot.number, List.length_append, List.length_cons]
  omega

/-- A method whose descriptor cannot be decoded. -/
def brokenLines : List Text :=
  ["Class #0", " Class descriptor : 'LA;'", " insns size : 1", "|[0] A.f:I", " positions :",
    " source_file_idx : 0"]

def brokenError : Error := .unexpectedLine 5 .methodDescriptor "I"

theorem read_brokenLines : Format.dexdump.read (unlines brokenLines) = .error brokenError := by
  -- The kernel is slow at taking strings apart, so that is done before.
  unfold brokenLines brokenError
  repeat rewrite [String.toList_ofList]
  decide

theorem quotation_of_read_brokenLines :
    Format.dexdump.read (unlines brokenLines) = .error brokenError ∧
      brokenError.quotation? = some (5, ("I" : Text)) ∧
      ∃ spot : Spot, spot.lines = Text.lines (unlines brokenLines) ∧ 5 = spot.number ∧
        1 ≤ 5 ∧ 5 ≤ (Text.lines (unlines brokenLines)).length ∧
        (("I" : Text) <:+: spot.line ∨ QuotesElsewhere spot "I" .dexdump brokenError) :=
  ⟨read_brokenLines, rfl, quotation_of_read read_brokenLines rfl⟩

/-- Not every text that an error quotes stands on the line that the error points at. -/
theorem not_forall_quotes_line : ¬∀ (format : Format) (text : Text) (error : Error)
    (lineNumber : Nat) (quoted : Text), format.read text = .error error →
      error.quotation? = some (lineNumber, quoted) →
        ∃ spot : Spot, spot.lines = Text.lines text ∧ lineNumber = spot.number ∧
          quoted <:+: spot.line := by
  intro all
  obtain ⟨spot, isDump, isNumber, isPart⟩ :=
    all .dexdump (unlines brokenLines) brokenError 5 "I" read_brokenLines rfl
  have isLine : (Text.lines (unlines brokenLines))[4]? = some spot.line := by
    have before : spot.earlier.length = 4 := by
      rw [Spot.number] at isNumber
      omega
    rw [← isDump, Spot.lines, ← before, List.getElem?_append_right (Nat.le_refl _), Nat.sub_self]
    rfl
  have known : (Text.lines (unlines brokenLines))[4]? = some (" positions :" : Text) := by
    decide
  rw [Option.some.inj (isLine.symm.trans known)] at isPart
  exact absurd isPart (by decide +kernel)

end CompiledViews.Dump
