import CompiledViews.Dump.Content
import CompiledViews.Proofs.Text.Lines

/-!
# The ends of the lines of a dump

A dump is read line by line, and no reader sees what ends a line. So it does not matter whether the
lines end in a line feed or in a carriage return and a line feed, nor whether the last line ends at
all: the same classes are read, or the same error is found in the same line.
-/

namespace CompiledViews.Dump

open Text

theorem Machine.read_congr {Scope : Type} (machine : Machine Scope) {text other : Text}
    (same : lines text = lines other) : machine.read text = machine.read other := by
  rw [Machine.read, Machine.read, same]

namespace Format

/-- Texts that have the same lines are read alike. -/
theorem read_congr (format : Format) {text other : Text} (same : lines text = lines other) :
    format.read text = format.read other := by
  cases format with
  | javap => exact Javap.machine.read_congr same
  | dexdump => exact Dexdump.machine.read_congr same
  | oatdump => exact Oatdump.machine.read_congr same

/-- A dump without carriage returns is read in the same way with one in front of each of its line
feeds, and with a line feed behind its last line if there is none. -/
theorem read_lineEnds (format : Format) {text : Text} (noReturn : '\r' ∉ text) :
    format.read (withReturns text) = format.read text ∧
      (text ≠ [] → text.getLast? ≠ some '\n' →
        format.read (text ++ ['\n']) = format.read text) := by
  refine ⟨format.read_congr (lines_withReturns noReturn), fun nonempty unended => ?_⟩
  exact format.read_congr (lines_concat_feed noReturn (not_or.2 ⟨nonempty, unended⟩))

/-- A dump with a line that is no number in its last line, which does not end. -/
def cutTable : Text :=
  "final class Cut \x7b\n  f();\n    Code:\n       0: return\n    LineNumberTable:\n" ++
    "      line 9: 99999999999"

theorem read_cutTable : javap.read cutTable = .error (.invalidNumber 6 "99999999999") := by
  -- The kernel is slow at taking strings apart, so that is done before.
  unfold cutTable
  repeat rewrite [String.toList_ofList]
  decide

/-- The error stays in the sixth line. -/
theorem read_lineEnds_cutTable :
    '\r' ∉ cutTable ∧ cutTable ≠ [] ∧ cutTable.getLast? ≠ some '\n' ∧
      javap.read (withReturns cutTable) = .error (.invalidNumber 6 "99999999999") ∧
      javap.read (cutTable ++ ['\n']) = .error (.invalidNumber 6 "99999999999") := by
  have shape : '\r' ∉ cutTable ∧ cutTable ≠ [] ∧ cutTable.getLast? ≠ some '\n' := by
    unfold cutTable
    repeat rewrite [String.toList_ofList]
    decide +kernel
  rcases shape with ⟨noReturn, nonempty, unended⟩
  have same := read_lineEnds javap noReturn
  rw [read_cutTable] at same
  exact ⟨noReturn, nonempty, unended, same.1, same.2 nonempty unended⟩

end Format

end CompiledViews.Dump
