import CompiledViews.Proofs.Dump.Javap.Branches
import CompiledViews.Proofs.Listing.Rows

/-!
# Branches that are counted and branches that lead somewhere

The summary of a method counts its branches, and the arrows of the listing come from the
instructions that lead somewhere. For the methods of a `javap` dump the branches are those that lead
somewhere and those that do not, and the line of an instruction tells which of the two it is.
-/

namespace CompiledViews.Listing

open Text Text.Form Dump Dump.Javap

/-- Every instruction of a method has a line of the dump, and leads to an address if the code on
this line is that of a plain jump to it. What leads somewhere is a branch, so all that leads
somewhere is counted as a branch, and the other branches are counted as well. -/
structure BranchesLead (lines : List Text) (method : Method) : Prop where
  shown : ∀ instruction ∈ method.instructions, ∃ line ∈ lines, ∃ address code,
    Javap.instructionLine.first? (trim line) = some (address, code) ∧
      instruction.op = (Instruction.splitCode code).1 ∧
      ∀ target, instruction.jumpAddress = some target ↔
        IsPlainJump code instruction ∧ instruction.operands.decimalValue = target
  branches : ∀ instruction ∈ method.instructions, ∀ target,
    instruction.jumpAddress = some target → Isa.byteCode.isBranch instruction.op = true
  counted : (BranchCount.ofMethod method).total =
    method.instructions.countP (·.jumpAddress.isSome) +
      method.instructions.countP fun instruction =>
        Isa.byteCode.isBranch instruction.op && instruction.jumpAddress.isNone

/-- Of some instructions of which each one that leads somewhere is a branch, the branches are those
that lead somewhere and the others. -/
theorem countP_isBranch {instructions : List Instruction}
    (branches : ∀ instruction ∈ instructions, ∀ target, instruction.jumpAddress = some target →
      Isa.byteCode.isBranch instruction.op = true) :
    instructions.countP (fun instruction => Isa.byteCode.isBranch instruction.op) =
      instructions.countP (·.jumpAddress.isSome) +
        instructions.countP fun instruction =>
          Isa.byteCode.isBranch instruction.op && instruction.jumpAddress.isNone := by
  rw [List.countP_eq_countP_filter_add instructions _ (·.jumpAddress.isSome), List.countP_filter,
    List.countP_filter]
  congr 1
  · refine List.countP_congr fun instruction member => ?_
    rw [Bool.and_eq_true, and_iff_right_iff_imp]
    intro leads
    rcases Option.isSome_iff_exists.1 leads with ⟨target, isTarget⟩
    exact branches instruction member target isTarget
  · simp only [Option.not_isSome]

/-- The branches of the methods of a `javap` dump that is read. -/
theorem branchesLead_of_read {dump : Text} {classes : List Class}
    (accepted : Dump.Javap.read dump = .ok classes) :
    ∀ cls ∈ classes, ∀ method ∈ cls.methods, BranchesLead (Text.lines dump) method := by
  intro cls inClasses method inClass
  have hasLines := hasLines_of_read accepted cls inClasses method inClass
  have branches : ∀ instruction ∈ method.instructions, ∀ target,
      instruction.jumpAddress = some target → Isa.byteCode.isBranch instruction.op = true := by
    intro instruction member target isTarget
    rcases hasLines.instructions instruction member with ⟨_, _, _, code, _, told⟩
    exact isBranch_of_isJumpMnemonic (told.isPlainJump isTarget).1.mnemonic
  refine ⟨?_, branches, ?_⟩
  · intro instruction member
    rcases hasLines.instructions instruction member with ⟨line, isLine, address, code, isCode, told⟩
    exact ⟨line, isLine, address, code, isCode, told.op, told.jumpAddress_iff⟩
  · rw [BranchCount.total_ofMethod, hasLines.isa]
    exact countP_isBranch branches

/-- A class with a loop that is closed by a wide jump. -/
def wideLines : List Text :=
  ["final class Spin \x7b", "  void run();", "    Code:", "       0: iload_1",
    "       1: ifeq          9", "       4: goto_w        0", "       9: return", "\x7d"]

def wideMethod : Method where
  header := "void run()"
  index := none
  codeSize := none
  isa := .byteCode
  instructions :=
    [Instruction.ofCode 0 "0" "iload_1" none, Instruction.ofCode 1 "1" "ifeq          9" (some 9),
      Instruction.ofCode 4 "4" "goto_w        0" none, Instruction.ofCode 9 "9" "return" none]
  references := .empty

theorem read_wideLines :
    Dump.Javap.read (unlines wideLines) = .ok [⟨"final class Spin", [wideMethod]⟩] := by
  -- The kernel is slow at taking strings apart, so that is done before.
  unfold wideLines wideMethod
  repeat rewrite [String.toList_ofList]
  decide

theorem branchesLead_of_read_wideLines :
    Dump.Javap.read (unlines wideLines) = .ok [⟨"final class Spin", [wideMethod]⟩] ∧
      BranchesLead (Text.lines (unlines wideLines)) wideMethod ∧
      (BranchCount.ofMethod wideMethod).total = 2 ∧
      wideMethod.instructions.map (·.jumpAddress) = [none, some 9, none, none] := by
  have lead := branchesLead_of_read read_wideLines _ (List.mem_singleton_self _) wideMethod
    (List.mem_singleton_self _)
  exact ⟨read_wideLines, lead, by decide, by decide⟩

/-- A wide jump is a branch and has a number as its operands, but it leads nowhere. -/
theorem not_forall_branches_lead :
    ¬∀ (dump : Text) (classes : List Class), Dump.Javap.read dump = .ok classes →
      ∀ cls ∈ classes, ∀ method ∈ cls.methods, ∀ instruction ∈ method.instructions,
        Isa.byteCode.isBranch instruction.op = true → instruction.operands.IsRun Char.isDigit →
          instruction.jumpAddress = some instruction.operands.decimalValue := by
  intro all
  have leads := all (unlines wideLines) _ read_wideLines _ (List.mem_singleton_self _) wideMethod
    (List.mem_singleton_self _) (Instruction.ofCode 4 "4" "goto_w        0" none)
    (List.mem_of_getElem? (i := 2) rfl) (by decide) (by decide)
  have leadsNowhere : (Instruction.ofCode 4 "4" "goto_w        0" none).jumpAddress = none := by
    decide +kernel
  rw [leadsNowhere] at leads
  cases leads

end CompiledViews.Listing
