import CompiledViews.NatMap
import CompiledViews.Text.Blank

/-!
# Instructions

One line of disassembled code, in a form that does not depend on the dump it comes from.
-/

namespace CompiledViews

/-- An instruction. `callAddress` is the address in the DEX code that a native call stands for, and
`callMethod` the index of the method whose DEX code that is, where it is an inlined one. -/
structure Instruction where
  address : Nat
  label : Text
  op : Text
  operands : Text
  jumpAddress : Option Nat
  callAddress : Option Nat
  callMethod : Option Nat
  lineNumber : Option Nat
deriving DecidableEq, Repr

namespace Instruction

/-- The mnemonic, which ends at the first space, and the operands without blanks around them. -/
def splitCode : Text → Text × Text
  | [] => ([], [])
  | ' ' :: rest => ([], Text.trim rest)
  | character :: rest => ((splitCode rest).map (character :: ·) id)

/-- The instruction with the given code, which is no call and has no source line. -/
def ofCode (address : Nat) (label code : Text) (jumpAddress : Option Nat) : Instruction :=
  let (op, operands) := splitCode code
  { address, label, op, operands, jumpAddress
    callAddress := none, callMethod := none, lineNumber := none }

/-- The instruction as it is shown: its label, its mnemonic, and its operands if there are any. -/
def shown (instruction : Instruction) : Text :=
  let head : Text := instruction.label ++ ": " ++ instruction.op
  if instruction.operands = [] then head else head ++ " " ++ instruction.operands

/-- The instructions with their source lines, looked up by address. -/
def withLineNumbers (table : NatMap Nat) (instructions : List Instruction) : List Instruction :=
  instructions.map fun instruction =>
    { instruction with lineNumber := table.get? instruction.address }

end Instruction

end CompiledViews
